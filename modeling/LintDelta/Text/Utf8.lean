/-!
# Bytes and characters

UTF-8 in both directions over lists of bytes. Reading is total: `decode` marks every ill-formed
stretch by `none`, where a stretch is the longest beginning of a character that the bytes cut short,
or else a single byte. `decodeLossy` shows each stretch as U+FFFD; `decode?` refuses them.
-/

namespace LintDelta.Text

abbrev Bytes := List UInt8

def isContinuation (b : UInt8) : Bool :=
  0x80 ≤ b && b ≤ 0xBF

/-- Whether a byte may follow the first byte of a character of three or four bytes: short forms,
surrogates and codes past U+10FFFF are excluded here. -/
def isSecond (first second : UInt8) : Bool :=
  if first = 0xE0 then 0xA0 ≤ second && second ≤ 0xBF
  else if first = 0xED then 0x80 ≤ second && second ≤ 0x9F
  else if first = 0xF0 then 0x90 ≤ second && second ≤ 0xBF
  else if first = 0xF4 then 0x80 ≤ second && second ≤ 0x8F
  else isContinuation second

def payload (b : UInt8) : Nat :=
  b.toNat % 64

/-- The characters that bytes spell, with `none` for each ill-formed stretch. -/
def decode : Bytes → List (Option Char)
  | [] => []
  | a :: rest =>
    if a < 0x80 then some (Char.ofNat a.toNat) :: decode rest
    else match rest with
      | [] => [none]
      | b :: rest₂ =>
        if 0xC2 ≤ a && a ≤ 0xDF then
          if isContinuation b then
            some (Char.ofNat (a.toNat % 32 * 64 + payload b)) :: decode rest₂
          else none :: decode (b :: rest₂)
        else if 0xE0 ≤ a && a ≤ 0xEF && isSecond a b then
          match rest₂ with
          | [] => [none]
          | c :: rest₃ =>
            if isContinuation c then
              some (Char.ofNat (a.toNat % 16 * 4096 + payload b * 64 + payload c)) :: decode rest₃
            else none :: decode (c :: rest₃)
        else if 0xF0 ≤ a && a ≤ 0xF4 && isSecond a b then
          match rest₂ with
          | [] => [none]
          | c :: rest₃ =>
            if isContinuation c then
              match rest₃ with
              | [] => [none]
              | d :: rest₄ =>
                if isContinuation d then
                  some (Char.ofNat (a.toNat % 8 * 262144 + payload b * 4096 + payload c * 64 +
                    payload d)) :: decode rest₄
                else none :: decode (d :: rest₄)
            else none :: decode (c :: rest₃)
        else none :: decode (b :: rest₂)

/-- Every ill-formed stretch becomes U+FFFD. -/
def decodeLossy (bytes : Bytes) : String :=
  String.ofList ((decode bytes).map fun c => c.getD (Char.ofNat 0xFFFD))

/-- The text, if the bytes are well formed. -/
def decode? (bytes : Bytes) : Option String :=
  ((decode bytes).mapM id).map String.ofList

def encode (s : String) : Bytes :=
  s.toList.flatMap String.utf8EncodeChar

end LintDelta.Text
