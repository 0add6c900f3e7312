import UnidppTrust.Reading

namespace UnidppTrust
open Rust Json Api
set_option autoImplicit true

variable {V : Vocabulary}

def DEFAULT_DEV_SEED : String := "unidpp-trust/dev-1"

def MIN_SEED_BYTES : Nat := 16

inductive Role where
  | signEd25519
  | signEcdsaP256
  deriving DecidableEq

def Role.asStr : Role → String
  | .signEd25519 => "sign-ed25519"
  | .signEcdsaP256 => "sign-ecdsa-p256"

inductive KeyringMode where
  | seededDev
  | envKey
  deriving DecidableEq

def KeyringMode.asStr : KeyringMode → String
  | .seededDev => "seeded-dev"
  | .envKey => "env-key"

/-- The service keyring; only the mode of development tells its seed. -/
structure Keyring (V : Vocabulary) where
  mode : KeyringMode
  edKey : V.KeyPair
  p256Key : V.KeyPair
  devSeed : Option String

section Assembly
variable (F : Fixtures V)

def Keyring.dev (seed : Option String) : Outcome ε (Keyring V) := do
  let devSeed := ((seed.map trim).filter fun s => !s.isEmpty).getD DEFAULT_DEV_SEED
  let edMaterial := "unidpp-trust/sign-ed25519|" ++ devSeed
  let p256Material := "unidpp-trust/sign-ecdsa-p256|" ++ devSeed
  let edKey ← unwrap (F.keyPairSeeded F.ed25519 (bytes edMaterial))
  let p256Key ← unwrap (F.keyPairSeeded F.ecdsaP256 (bytes p256Material))
  .ok ⟨.seededDev, edKey, p256Key, some devSeed⟩

def seedTooShort (name : String) (seed : Bytes) : String :=
  name ++ " seed too short: " ++ toString seed.length ++ " bytes (need at least " ++
    toString MIN_SEED_BYTES ++ ")"

def Keyring.fromEnvSeeds (edHex p256Hex : String) : Outcome String (Keyring V) := do
  let edSeed ← mapErr ("Ed25519 seed: not hex: " ++ ·) (hexDecode (trim edHex))
  let p256Seed ← mapErr ("ECDSA-P256 seed: not hex: " ++ ·) (hexDecode (trim p256Hex))
  if edSeed.length < MIN_SEED_BYTES then fail (seedTooShort "Ed25519" edSeed)
  if p256Seed.length < MIN_SEED_BYTES then fail (seedTooShort "ECDSA-P256" p256Seed)
  let edKey ← mapErr ("Ed25519 key derivation: " ++ ·) (lift (F.keyPairSeeded F.ed25519 edSeed))
  let p256Key ← mapErr ("ECDSA-P256 key derivation: " ++ ·)
    (lift (F.keyPairSeeded F.ecdsaP256 p256Seed))
  .ok ⟨.envKey, edKey, p256Key, none⟩

structure SeedVars where
  signSeed : Option String
  signSeedP256 : Option String

/-- Seeds of the operator that are rejected are warned of, and development keys take their
place. -/
def Keyring.fromEnv (vars : SeedVars) (devSeed : Option String) :
    Outcome ε (Keyring V × List String) :=
  match vars.signSeed, vars.signSeedP256 with
  | some e, some p =>
    match Keyring.fromEnvSeeds F e p with
    | .ok k => .ok (k, [])
    | .error (.err err) => do
      let k ← Keyring.dev F devSeed
      .ok (k, ["UNIDPP_TRUST_SIGN_SEED / UNIDPP_TRUST_SIGN_SEED_P256 rejected: " ++ err ++
        "; falling back to seeded-dev mode"])
    | .error .abort => abort
  | _, _ => do
    let k ← Keyring.dev F devSeed
    .ok (k, [])

def Keyring.key (k : Keyring V) : Role → V.KeyPair
  | .signEd25519 => k.edKey
  | .signEcdsaP256 => k.p256Key

def Keyring.public (k : Keyring V) (role : Role) : V.PublicKey := F.keyPairPublic (k.key role)

def Keyring.keyId (k : Keyring V) (role : Role) : V.KeyId := F.keyPairKeyId (k.key role)

end Assembly

section Publication
variable (S : Signatif V) (F : Fixtures V)

def Keyring.roleJson (k : Keyring V) (role : Role) : Value :=
  .object [("suite", .str (S.suiteStr (S.publicSuite (k.public F role)))),
    ("key_id", .str (S.keyIdStr (k.keyId F role))),
    ("public", .str (hexEncode (S.publicBytes (k.public F role)))),
    ("public_len", .usize (S.publicBytes (k.public F role)).length)]

def keyringHeaders : Value :=
  .object [("as_of", .str "x-as-of"), ("ed25519_sig", .str "x-sig-ed25519"),
    ("ed25519_key", .str "x-sig-key-id-ed25519"), ("ecdsa_p256_sig", .str "x-sig-ecdsa-p256"),
    ("ecdsa_p256_key", .str "x-sig-key-id-ecdsa-p256"), ("domain", .str "x-sig-domain"),
    ("etag", .str "etag"), ("cache_control", .str "cache-control")]

def verificationRecipe : String :=
  "GET responses carry x-sig-ed25519 and x-sig-ecdsa-p256 over the exact body bytes in the " ++
  "tree-head domain. Verify by SignatureSlot::verify(SigningDomain::TreeHead, body_bytes, " ++
  "public_key); pin either role via CLI --anchor."

def devWarning : String :=
  "seeded-dev mode is for development only; production deployments must use env-key mode"

def Keyring.toJson (k : Keyring V) : Fields :=
  fieldsOf ([("mode", .str k.mode.asStr),
    ("roles", .object ([.signEd25519, .signEcdsaP256].map fun role =>
      (role.asStr, k.roleJson S F role))),
    ("domain", .str "tree-head"), ("headers", keyringHeaders),
    ("verification", .str verificationRecipe)] ++
    match k.devSeed with
    | some seed => [("dev_seed", .str seed), ("warning", .str devWarning)]
    | none => [])

/-- The headers over a body, signed by `SignatureSlot::sign`. -/
def Keyring.signHeaders (sign : V.KeyPair → SigningDomain → Bytes → Except String (SignatureSlot V))
    (k : Keyring V) (body : Bytes) : Outcome Empty (List (String × String)) := do
  let edSlot ← unwrap (sign k.edKey .treeHead body)
  let pSlot ← unwrap (sign k.p256Key .treeHead body)
  let edSig := (edSlot.signature.map hexEncode).getD ""
  let pSig := (pSlot.signature.map hexEncode).getD ""
  if edSig.length < 32 then abort
  else .ok [("x-sig-domain", "tree-head"), ("x-sig-ed25519", edSig),
    ("x-sig-key-id-ed25519", S.keyIdStr (k.keyId F .signEd25519)), ("x-sig-ecdsa-p256", pSig),
    ("x-sig-key-id-ecdsa-p256", S.keyIdStr (k.keyId F .signEcdsaP256)),
    ("etag", String.ofList ('"' :: "sig-".toList ++ edSig.toList.take 32 ++ ['"']))]

/-- The instance whose responses this keyring signs, and which serves it. -/
structure Keyring.Runs
    (sign : V.KeyPair → SigningDomain → Bytes → Except String (SignatureSlot V))
    (k : Keyring V) (A : App V) : Prop where
  signs : ∀ body, k.signHeaders A.crates.signatif A.crates.fixtures sign body =
    .ok (A.signHeaders body)
  keyring : A.keyring = k.toJson A.crates.signatif A.crates.fixtures

/-- What is relied on of the signatures: a slot is of the key that signs it, and verifies under
it; the id of a key is that of its public part. -/
structure Signer (sign : V.KeyPair → SigningDomain → Bytes → Except String (SignatureSlot V)) :
    Prop where
  keyId : ∀ key, F.keyPairKeyId key = S.keyIdOf (F.keyPairPublic key)
  verified : ∀ key domain payload slot, sign key domain payload = .ok slot →
    ∃ signature, slot = ⟨S.publicSuite (F.keyPairPublic key), F.keyPairKeyId key, some signature⟩ ∧
      S.slotVerify slot domain payload (F.keyPairPublic key) = true

end Publication

def Role.suiteField : Role → String
  | .signEd25519 => "ed25519"
  | .signEcdsaP256 => "ecdsa_p256"

def field (v : Value) (key : String) : Option String := (v.get key).bind Value.asStr

/-- What a verifier does who has only the served keyring: the headers that it names give a
signature and a key id, which are checked against the key that it shows. -/
def verifies (S : Signatif V) (keyring : Value) (role : Role) (r : Response) : Bool :=
  let check := do
    let entry ← (keyring.get "roles").bind (·.get role.asStr)
    let headers ← keyring.get "headers"
    let signature ← (field headers (role.suiteField ++ "_sig")).bind (r.headers.lookup ·)
    let keyId ← (field headers (role.suiteField ++ "_key")).bind (r.headers.lookup ·)
    let raw ← (hexDecode signature).toOption
    let publicBytes ← (field entry "public").bind fun hex => (hexDecode hex).toOption
    let key ← (S.publicFromBytes publicBytes).toOption
    let id ← (S.keyIdNew keyId).toOption
    some (field entry "key_id" == some keyId && decide (S.keyIdOf key = id) &&
      S.slotVerify ⟨S.publicSuite key, id, some raw⟩ .treeHead r.body key)
  check.getD false

variable {A : App V} {k : Keyring V}
  {sign : V.KeyPair → SigningDomain → Bytes → Except String (SignatureSlot V)}

def Role.sigHeader : Role → String
  | .signEd25519 => "x-sig-ed25519"
  | .signEcdsaP256 => "x-sig-ecdsa-p256"

def Role.keyIdHeader : Role → String
  | .signEd25519 => "x-sig-key-id-ed25519"
  | .signEcdsaP256 => "x-sig-key-id-ecdsa-p256"

/-- Headers that hold a signature over the body under the key of a role. -/
def Covers (S : Signatif V) (F : Fixtures V) (k : Keyring V) (role : Role) (body : Bytes)
    (headers : List (String × String)) : Prop :=
  ∃ raw, headers.lookup role.sigHeader = some (hexEncode raw) ∧
    headers.lookup role.keyIdHeader = some (S.keyIdStr (k.keyId F role)) ∧
    S.slotVerify ⟨S.publicSuite (k.public F role), k.keyId F role, some raw⟩ .treeHead body
      (k.public F role) = true

theorem signHeaders_cover {S : Signatif V} {F : Fixtures V} {body : Bytes} (hs : Signer S F sign)
    (h : k.signHeaders S F sign body = .ok headers) (role : Role) :
    Covers S F k role body headers := by
  obtain ⟨edSlot, hed, h⟩ := bind_eq_ok h
  obtain ⟨pSlot, hp, h⟩ := bind_eq_ok h
  obtain ⟨edRaw, rfl, hedVerified⟩ := hs.verified _ _ _ _ (unwrap_eq_ok hed)
  obtain ⟨pRaw, rfl, hpVerified⟩ := hs.verified _ _ _ _ (unwrap_eq_ok hp)
  dsimp only at h
  split at h
  · cases h
  · cases h
    cases role with
    | signEd25519 => exact ⟨edRaw, rfl, rfl, hedVerified⟩
    | signEcdsaP256 => exact ⟨pRaw, rfl, rfl, hpVerified⟩

def Carries (A : App V) (r : Response) : Prop :=
  ∀ name, (∃ role : Role, name = role.sigHeader ∨ name = role.keyIdHeader) →
    r.headers.lookup name = (A.signHeaders r.body).lookup name

theorem lookup_between {before l after : List (String × String)}
    (hbefore : before.lookup name = none) (hafter : after.lookup name = none) :
    (before ++ l ++ after).lookup name = l.lookup name := by
  rw [List.lookup_append, List.lookup_append, hbefore, hafter, Option.none_or, Option.or_none]

theorem carries_signed (A : App V) (status : Nat) (doc : Value) (asOf : Timestamp)
    (cache : CachePolicy) : Carries A (signed A status doc asOf cache) := by
  rintro name ⟨role, rfl | rfl⟩
  all_goals
    cases role with
    | signEd25519 => exact lookup_between rfl rfl
    | signEcdsaP256 => exact lookup_between rfl rfl

theorem carries_released {e : Evidence} (h : released A now e = .ok r) : Carries A r := by
  rw [released, build] at h
  split at h
  · cases h
    rintro name ⟨role, rfl | rfl⟩
    all_goals
      rw [← List.append_nil (_ ++ _)]
      cases role with
      | signEd25519 => exact lookup_between rfl rfl
      | signEcdsaP256 => exact lookup_between rfl rfl
  · cases h

theorem serve_carries {order : HashOrder} {req : Request} {m : Moment} {s : Store V} {route : Route}
    (hroute : route ≠ .contractYaml) (h : (serve A order req m s route).1 = .ok r) :
    Carries A r := by
  rcases serve_responds A order req m s route with
    (⟨d, -, hr⟩ | ⟨f, -, hr⟩) | ⟨hcontract, -⟩ | ⟨id, e, -, -, -, hr⟩
  · rw [hr] at h
    cases h
    exact carries_signed _ _ _ _ _
  · rw [hr] at h
    cases h
    exact carries_signed _ _ _ _ _
  · exact (hroute hcontract).elim
  · rw [hr] at h
    exact carries_released h

def keyringDoc (S : Signatif V) (F : Fixtures V) (k : Keyring V) (now : Timestamp) : Value :=
  .obj (insertField "as_of" (.str now.toString) (k.toJson S F))

theorem keyringDoc_get (S : Signatif V) (F : Fixtures V) (k : Keyring V) (now : Timestamp)
    (key : String) :
    (keyringDoc S F k now).get key =
      if key = "as_of" then some (.str now.toString) else (k.toJson S F).lookup key :=
  lookup_insertField _ _ _ _

theorem toJson_lookup (S : Signatif V) (F : Fixtures V) (k : Keyring V) :
    (k.toJson S F).lookup "roles" = some (.object ([.signEd25519, .signEcdsaP256].map
        fun role : Role => (role.asStr, k.roleJson S F role))) ∧
      (k.toJson S F).lookup "headers" = some keyringHeaders ∧
      (k.toJson S F).lookup "mode" = some (.str k.mode.asStr) ∧
      (k.toJson S F).lookup "warning" = k.devSeed.map fun _ => .str devWarning := by
  obtain ⟨mode, edKey, p256Key, devSeed⟩ := k
  simp only [Keyring.toJson, lookup_fieldsOf]
  cases devSeed with
  | none => exact ⟨rfl, rfl, rfl, rfl⟩
  | some seed => exact ⟨rfl, rfl, rfl, rfl⟩

theorem canonical_insertField {fs : Fields} (h : (Value.obj fs).Canonical P (n + 1))
    (hv : v.Canonical P n) : (Value.obj (insertField key v fs)).Canonical P (n + 1) := by
  obtain ⟨hpos, hsorted, hfields⟩ := h
  refine ⟨hpos, hsorted.insertField, canonicalFields_iff.2 fun f hf => ?_⟩
  rcases mem_insertField hf with rfl | hf
  · exact hv
  · exact canonicalFields_iff.1 hfields f hf

theorem canonical_keyringDoc (S : Signatif V) (F : Fixtures V) (k : Keyring V) (now : Timestamp) :
    (keyringDoc S F k now).Canonical P 127 := by
  have hrole (role : Role) : (k.roleJson S F role).Canonical P 125 :=
    canonical_fields ⟨trivial, trivial, trivial, trivial⟩
  have hroles : (Value.object ([.signEd25519, .signEcdsaP256].map fun role : Role =>
      (role.asStr, k.roleJson S F role))).Canonical P 126 :=
    canonical_fields ⟨hrole _, hrole _⟩
  have hheaders : keyringHeaders.Canonical P 126 :=
    canonical_fields ⟨trivial, trivial, trivial, trivial, trivial, trivial, trivial, trivial⟩
  have hfields : (Value.obj (k.toJson S F)).Canonical P 127 := by
    obtain ⟨mode, edKey, p256Key, devSeed⟩ := k
    cases devSeed with
    | none => exact canonical_fields ⟨trivial, hroles, trivial, hheaders, trivial⟩
    | some seed =>
      exact canonical_fields ⟨trivial, hroles, trivial, hheaders, trivial, trivial, trivial⟩
  exact canonical_insertField hfields trivial

theorem Reads.keyring {s : Store V} {doc : Value} (hA : A.Legible) (hk : k.Runs sign A)
    (h : Reads A .keyring req s doc) :
    ∃ now, doc = keyringDoc A.crates.signatif A.crates.fixtures k now := by
  obtain ⟨order, m, d, hd, rfl⟩ := h.doc (x := fun _ m => .ok (Api.keyring A m.now)) hA rfl
    (fun _ _ => rfl) (fun _ m => states_ok _) fun _ m d hd => by
      cases hd
      rw [Api.keyring, hk.keyring]
      exact canonical_keyringDoc _ _ _ _
  cases hd
  rw [Api.keyring, hk.keyring]
  exact ⟨m.now, rfl⟩

/-- Under the keyring document, headers that cover a body verify. -/
theorem Covers.verifies {S : Signatif V} {F : Fixtures V} (hS : S.Lawful P) (hs : Signer S F sign)
    {r : Response} (h : Covers S F k role r.body r.headers) (now : Timestamp) :
    verifies S (keyringDoc S F k now) role r = true := by
  obtain ⟨raw, hsig, hid, hverified⟩ := h
  obtain ⟨hroles, hheaders, -, -⟩ := toJson_lookup S F k
  have hgetRoles := keyringDoc_get S F k now "roles"
  have hgetHeaders := keyringDoc_get S F k now "headers"
  rw [if_neg (by decide), hroles] at hgetRoles
  rw [if_neg (by decide), hheaders] at hgetHeaders
  have hsigName : field keyringHeaders (role.suiteField ++ "_sig") = some role.sigHeader := by
    cases role <;> rfl
  have hidName : field keyringHeaders (role.suiteField ++ "_key") = some role.keyIdHeader := by
    cases role <;> rfl
  have hentry : (Value.object ([.signEd25519, .signEcdsaP256].map fun role : Role =>
      (role.asStr, k.roleJson S F role))).get role.asStr = some (k.roleJson S F role) := by
    rw [get_object, lookup_fieldsOf]
    cases role <;> rfl
  have hpublic : field (k.roleJson S F role) "public" =
      some (hexEncode (S.publicBytes (k.public F role))) := by
    rw [field, Keyring.roleJson, get_object, lookup_fieldsOf]
    rfl
  have hkeyId : field (k.roleJson S F role) "key_id" =
      some (S.keyIdStr (k.keyId F role)) := by
    rw [field, Keyring.roleJson, get_object, lookup_fieldsOf]
    rfl
  have hownId : S.keyIdOf (k.public F role) = k.keyId F role := (hs.keyId _).symm
  simp only [UnidppTrust.verifies, hgetRoles, hgetHeaders, hentry, hsigName, hidName, hpublic,
    hkeyId, hsig, hid, Option.bind_eq_bind, Option.bind_some, hexDecode_hexEncode, Except.toOption,
    hS.publicKey, hS.keyId]
  rw [Option.getD_some, hownId, hverified, decide_eq_true rfl, beq_self_eq_true]
  rfl

/-- Every response, of a document or an error, a read, a mutation or a release, verifies under
both keys of the keyring that the service serves, whenever either is asked for. -/
theorem responses_verify (A : App V) (hC : A.crates.Lawful) (hA : A.Legible)
    (sign : V.KeyPair → SigningDomain → Bytes → Except String (SignatureSlot V))
    (hs : Signer A.crates.signatif A.crates.fixtures sign) (k : Keyring V) (hk : k.Runs sign A)
    (s s' : Store V) (asked : Request) (doc : Value) (hdoc : Reads A .keyring asked s doc)
    (x : Arrival) (route : Route) (req : Request) (r : Response)
    (hroute : router x.method x.path = some route) (hreq : x.request = some req)
    (hcontract : route ≠ .contractYaml) (hhead : x.method ≠ .head)
    (hr : (respond A x s').1 = .ok r) (role : Role) :
    verifies A.crates.signatif doc role r = true := by
  obtain ⟨now, rfl⟩ := hdoc.keyring hA hk
  rw [respond_routed hroute hreq hhead] at hr
  have hcarries := serve_carries hcontract hr
  obtain ⟨raw, hsig, hid, hverified⟩ := signHeaders_cover hs (hk.signs r.body) role
  have hcovers : Covers A.crates.signatif A.crates.fixtures k role r.body r.headers := by
    refine ⟨raw, ?_, ?_, hverified⟩
    · rw [hcarries _ ⟨role, .inl rfl⟩, hsig]
    · rw [hcarries _ ⟨role, .inr rfl⟩, hid]
  exact hcovers.verifies hC.signatif hs now

section Modes
variable {F : Fixtures V}

/-- Both seeds are set, in hex, long enough, and give keys. -/
inductive SeedVars.Gives (F : Fixtures V) : SeedVars → V.KeyPair → V.KeyPair → Prop where
  | both (he : hexDecode (trim e) = .ok edSeed) (hp : hexDecode (trim p) = .ok p256Seed)
      (hedLen : MIN_SEED_BYTES ≤ edSeed.length) (hpLen : MIN_SEED_BYTES ≤ p256Seed.length)
      (hed : F.keyPairSeeded F.ed25519 edSeed = .ok edKey)
      (hp256 : F.keyPairSeeded F.ecdsaP256 p256Seed = .ok p256Key) :
      SeedVars.Gives F ⟨some e, some p⟩ edKey p256Key

theorem fromEnvSeeds_ok_iff : Keyring.fromEnvSeeds F e p = .ok k ↔
    ∃ edKey p256Key, SeedVars.Gives F ⟨some e, some p⟩ edKey p256Key ∧
      k = ⟨.envKey, edKey, p256Key, none⟩ := by
  constructor
  · intro h
    obtain ⟨edSeed, he, h⟩ := bind_eq_ok h
    obtain ⟨p256Seed, hp, h⟩ := bind_eq_ok h
    obtain ⟨hedLen, h⟩ := check_eq_ok h
    obtain ⟨hpLen, h⟩ := check_eq_ok h
    obtain ⟨edKey, hed, h⟩ := bind_eq_ok h
    obtain ⟨p256Key, hp256, h⟩ := bind_eq_ok h
    cases h
    exact ⟨edKey, p256Key, .both (mapErr_eq_ok he) (mapErr_eq_ok hp) (Nat.not_lt.1 hedLen)
      (Nat.not_lt.1 hpLen) (lift_eq_ok (mapErr_eq_ok hed)) (lift_eq_ok (mapErr_eq_ok hp256)), rfl⟩
  · rintro ⟨edKey, p256Key, hgives, rfl⟩
    cases hgives with
    | both he hp hedLen hpLen hed hp256 =>
      rw [Keyring.fromEnvSeeds, he, hp]
      change (if _ then _ else _) = _
      rw [if_neg (Nat.not_lt.2 hedLen)]
      change (if _ then _ else _) = _
      rw [if_neg (Nat.not_lt.2 hpLen), hed, hp256]
      rfl

theorem dev_seeded (h : (Keyring.dev F seed : Outcome ε (Keyring V)) = .ok k) :
    k.mode = .seededDev ∧ ∃ s, k.devSeed = some s := by
  obtain ⟨edKey, -, h⟩ := bind_eq_ok h
  obtain ⟨p256Key, -, h⟩ := bind_eq_ok h
  cases h
  exact ⟨rfl, _, rfl⟩

theorem fromEnv_gives (h : vars.Gives F edKey p256Key) (devSeed : Option String) :
    (Keyring.fromEnv F vars devSeed : Outcome ε (Keyring V × List String)) =
      .ok (⟨.envKey, edKey, p256Key, none⟩, []) := by
  obtain ⟨signSeed, signSeedP256⟩ := vars
  cases h with
  | both he hp hedLen hpLen hed hp256 =>
    rw [Keyring.fromEnv]
    dsimp only
    rw [fromEnvSeeds_ok_iff.2 ⟨_, _, .both he hp hedLen hpLen hed hp256, rfl⟩]

/-- Without such seeds the keys are those of development, and seeds that were set are warned of. -/
theorem fromEnv_dev {k : Keyring V} (hno : ∀ edKey p256Key, ¬ vars.Gives F edKey p256Key)
    (h : (Keyring.fromEnv F vars devSeed : Outcome ε (Keyring V × List String)) =
      .ok (k, warnings)) :
    (Keyring.dev F devSeed : Outcome ε (Keyring V)) = .ok k ∧
      (warnings = [] ↔ vars.signSeed = none ∨ vars.signSeedP256 = none) := by
  obtain ⟨signSeed, signSeedP256⟩ := vars
  rw [Keyring.fromEnv] at h
  split at h
  · rename_i e p he hp
    cases he
    cases hp
    split at h
    · rename_i k' hk
      obtain ⟨edKey, p256Key, hgives, -⟩ := fromEnvSeeds_ok_iff.1 hk
      exact (hno _ _ hgives).elim
    · obtain ⟨k', hk', h⟩ := bind_eq_ok h
      cases h
      simp [hk']
    · cases h
  · rename_i hunset
    obtain ⟨k', hk', h⟩ := bind_eq_ok h
    cases h
    refine ⟨hk', iff_of_true rfl ?_⟩
    cases signSeed with
    | none => exact .inl rfl
    | some e =>
      cases signSeedP256 with
      | none => exact .inr rfl
      | some p => exact (hunset e p rfl rfl).elim

end Modes

/-- The served keyring warns of development keys exactly when the seeds of the operator are not
what signs the responses; what `from_env` warns of itself are seeds that are given and rejected. -/
theorem keyring_warning (A : App V) (hA : A.Legible)
    (sign : V.KeyPair → SigningDomain → Bytes → Except String (SignatureSlot V))
    (vars : SeedVars) (devSeed : Option String) (k : Keyring V) (warnings : List String)
    (henv : (Keyring.fromEnv A.crates.fixtures vars devSeed :
      Outcome Empty (Keyring V × List String)) = .ok (k, warnings))
    (hk : k.Runs sign A) (s : Store V) (asked : Request) (doc : Value)
    (hdoc : Reads A .keyring asked s doc) :
    (doc.get "warning" = none ↔ vars.Gives A.crates.fixtures k.edKey k.p256Key) ∧
      (doc.get "warning" = none ↔ field doc "mode" = some "env-key") ∧
      (warnings = [] ↔ doc.get "warning" = none ∨ vars.signSeed = none ∨
        vars.signSeedP256 = none) := by
  obtain ⟨now, rfl⟩ := hdoc.keyring hA hk
  obtain ⟨-, -, hmode, hwarning⟩ := toJson_lookup A.crates.signatif A.crates.fixtures k
  have hgetMode := keyringDoc_get A.crates.signatif A.crates.fixtures k now "mode"
  have hgetWarning := keyringDoc_get A.crates.signatif A.crates.fixtures k now "warning"
  rw [if_neg (by decide), hmode] at hgetMode
  rw [if_neg (by decide), hwarning] at hgetWarning
  rw [field, hgetMode, hgetWarning, Option.bind_some, asStr_str]
  by_cases hgives : ∃ edKey p256Key, vars.Gives A.crates.fixtures edKey p256Key
  · obtain ⟨edKey, p256Key, hgives⟩ := hgives
    rw [fromEnv_gives hgives] at henv
    cases henv
    simp [hgives, KeyringMode.asStr]
  · have hno : ∀ edKey p256Key, ¬ vars.Gives A.crates.fixtures edKey p256Key :=
      fun edKey p256Key h => hgives ⟨edKey, p256Key, h⟩
    obtain ⟨hdev, hwarnings⟩ := fromEnv_dev hno henv
    obtain ⟨hdevMode, seed, hseed⟩ := dev_seeded hdev
    simp [hno, hdevMode, hseed, hwarnings, KeyringMode.asStr]

theorem reads_keyring (hA : A.Legible) (hk : k.Runs sign A) (req : Request) (s : Store V)
    (now : Timestamp) :
    Reads A .keyring req s (keyringDoc A.crates.signatif A.crates.fixtures k now) := by
  have hdoc : (Api.keyring A now).doc = keyringDoc A.crates.signatif A.crates.fixtures k now := by
    rw [Api.keyring, hk.keyring]
    rfl
  rw [← hdoc]
  refine reads_doc (x := fun _ m => .ok (Api.keyring A m.now)) hA rfl (fun _ _ => rfl) .ascending
    ⟨now, fun _ => ⟨now, true⟩⟩ rfl rfl ?_
  rw [hdoc]
  exact canonical_keyringDoc _ _ _ _

open Reference

def slotSign (key : Suite × Bytes) (_ : SigningDomain) (payload : Bytes) :
    Except String (SignatureSlot vocabulary) := .ok (slotOf payload key)

theorem slotSign_signer : Signer signatif fixtures slotSign where
  keyId _ := rfl
  verified key domain payload slot h := by
    cases h
    obtain ⟨suite, seed⟩ := key
    have hsuite : signatif.publicSuite (publicOf (suite, seed)) = suite := by
      cases suite <;> simp [signatif, publicOf]
    refine ⟨sign payload (publicOf (suite, seed)), ?_, beq_self_eq_true _⟩
    change slotOf payload (suite, seed) =
      ⟨signatif.publicSuite (publicOf (suite, seed)), _, some (sign payload _)⟩
    rw [hsuite]
    rfl

def devKeys : Keyring vocabulary :=
  ⟨.seededDev, (.ed25519, bytes "unidpp-trust/sign-ed25519|unidpp-trust/dev-1"),
    (.ecdsaP256, bytes "unidpp-trust/sign-ecdsa-p256|unidpp-trust/dev-1"),
    some "unidpp-trust/dev-1"⟩

theorem devKeys_fromEnv :
    (Keyring.fromEnv fixtures ⟨none, none⟩ none : Outcome Empty _) = .ok (devKeys, []) := rfl

def keyedApp (k : Keyring vocabulary) : App vocabulary :=
  { app with
    keyring := k.toJson signatif fixtures
    signHeaders := fun body => (k.signHeaders signatif fixtures slotSign body).toOption.getD [] }

theorem slotSign_headers (k : Keyring vocabulary) (body : Bytes) :
    ∃ headers, k.signHeaders signatif fixtures slotSign body = .ok headers := by
  have hlong : ¬ (hexEncode (sign body (publicOf k.edKey))).length < 32 := by
    rw [length_hexEncode, sign, List.length_replicate]
    decide
  have hsigned (key : Suite × Bytes) :
      ((slotOf body key).signature.map hexEncode).getD "" = hexEncode (sign body (publicOf key)) :=
    rfl
  simp only [Keyring.signHeaders, slotSign, unwrap, ok_bind, hsigned, if_neg hlong]
  exact ⟨_, rfl⟩

theorem keyedApp_crates (k : Keyring vocabulary) : (keyedApp k).crates = crates := rfl

theorem keyedApp_signHeaders (k : Keyring vocabulary) (body : Bytes) :
    (keyedApp k).signHeaders body =
      (k.signHeaders signatif fixtures slotSign body).toOption.getD [] := by
  rw [keyedApp]

theorem crates_fixtures : crates.fixtures = fixtures := rfl

theorem keyedApp_runs (k : Keyring vocabulary) : k.Runs slotSign (keyedApp k) where
  signs body := by
    obtain ⟨headers, hsigned⟩ := slotSign_headers k body
    rw [keyedApp_crates, crates_signatif, crates_fixtures, keyedApp_signHeaders, hsigned]
    rfl
  keyring := rfl

theorem keyedApp_legible (k : Keyring vocabulary) : (keyedApp k).Legible := app_legible

def healthzArrival : Arrival :=
  ⟨.get, .healthz, some ⟨∅, ∅, ""⟩, ⟨404, [], []⟩, .ascending, ⟨⟨43200⟩, noon⟩⟩

/-- The status verifies under the keyring served before. -/
theorem responses_verify_healthz :
    ∃ doc r, Reads (keyedApp devKeys) .keyring ⟨∅, ∅, ""⟩ (storeOf crates [] []) doc ∧
      (respond (keyedApp devKeys) healthzArrival (storeOf crates [] [])).1 = .ok r ∧
      verifies signatif doc .signEd25519 r = true ∧
      verifies signatif doc .signEcdsaP256 r = true := by
  have hdoc := reads_keyring (keyedApp_legible devKeys) (keyedApp_runs devKeys) ⟨∅, ∅, ""⟩
    (storeOf crates [] []) ⟨0⟩
  have hr : ∃ r, (respond (keyedApp devKeys) healthzArrival (storeOf crates [] [])).1 = .ok r := by
    rw [respond_routed rfl rfl Method.noConfusion, serve, answer]
    exact ⟨_, rfl⟩
  obtain ⟨r, hr⟩ := hr
  have hverifies (role : Role) := responses_verify (keyedApp devKeys) crates_lawful
    (keyedApp_legible _) slotSign slotSign_signer devKeys (keyedApp_runs _) _ _ _ _ hdoc
    healthzArrival .healthz _ r rfl rfl (by decide) (by decide) hr role
  exact ⟨_, r, hdoc, hr, hverifies _, hverifies _⟩

/-- Without seeds of the operator the served keyring warns. -/
theorem keyring_warning_dev :
    ∃ doc, Reads (keyedApp devKeys) .keyring ⟨∅, ∅, ""⟩ (storeOf crates [] []) doc ∧
      (doc.get "warning" = none ↔ SeedVars.Gives fixtures ⟨none, none⟩ devKeys.edKey
        devKeys.p256Key) := by
  have hdoc := reads_keyring (keyedApp_legible devKeys) (keyedApp_runs devKeys) ⟨∅, ∅, ""⟩
    (storeOf crates [] []) ⟨0⟩
  exact ⟨_, hdoc, (keyring_warning (keyedApp devKeys) (keyedApp_legible _) slotSign ⟨none, none⟩
    none devKeys [] devKeys_fromEnv (keyedApp_runs _) _ _ _ hdoc).1⟩

end UnidppTrust
