import UnidppTrust.Json

namespace Json
set_option autoImplicit true

def isWs (c : Char) : Bool := c == ' ' || c == '\n' || c == '\t' || c == '\r'

def hexDigit (n : Nat) : Char :=
  if n < 10 then Char.ofNat (n + 48) else Char.ofNat (n + 87)

def escChar (c : Char) : List Char :=
  if c = '\"' then ['\\', '\"']
  else if c = '\\' then ['\\', '\\']
  else if c = '\x08' then ['\\', 'b']
  else if c = '\t' then ['\\', 't']
  else if c = '\n' then ['\\', 'n']
  else if c = '\x0c' then ['\\', 'f']
  else if c = '\r' then ['\\', 'r']
  else if c.toNat < 32 then ['\\', 'u', '0', '0', hexDigit (c.toNat / 16), hexDigit (c.toNat % 16)]
  else [c]

def renderStr (s : String) : List Char := '\"' :: (s.toList.flatMap escChar ++ ['\"'])

def renderNumber : Number → List Char
  | .posInt n => Nat.toDigits 10 n.toNat
  | .other lit _ => lit

/-- The two formatters: `to_string` and `to_string_pretty`. -/
inductive Layout where
  | compact
  | pretty

def Layout.sep : Layout → Nat → List Char
  | .compact, _ => []
  | .pretty, d => '\n' :: List.replicate (2 * d) ' '

def Layout.colon : Layout → List Char
  | .compact => [':']
  | .pretty => [':', ' ']

mutual
def render (L : Layout) (d : Nat) : Value → List Char
  | .null => ['n', 'u', 'l', 'l']
  | .bool true => ['t', 'r', 'u', 'e']
  | .bool false => ['f', 'a', 'l', 's', 'e']
  | .num n => renderNumber n
  | .str s => renderStr s
  | .arr [] => ['[', ']']
  | .arr (x :: xs) =>
    '[' :: (L.sep (d + 1) ++ render L (d + 1) x ++ renderItems L d xs)
  | .obj [] => ['{', '}']
  | .obj (f :: fs) =>
    '{' :: (L.sep (d + 1) ++ renderField L (d + 1) f ++ renderFields L d fs)

def renderItems (L : Layout) (d : Nat) : List Value → List Char
  | [] => L.sep d ++ [']']
  | x :: xs => ',' :: (L.sep (d + 1) ++ render L (d + 1) x ++ renderItems L d xs)

def renderFields (L : Layout) (d : Nat) : Fields → List Char
  | [] => L.sep d ++ ['}']
  | f :: fs => ',' :: (L.sep (d + 1) ++ renderField L (d + 1) f ++ renderFields L d fs)

def renderField (L : Layout) (d : Nat) : String × Value → List Char
  | (k, v) => renderStr k ++ L.colon ++ render L d v
end

def Value.toString (v : Value) : String := String.ofList (render .compact 0 v)

def Value.toStringPretty (v : Value) : String := String.ofList (render .pretty 0 v)

end Json
