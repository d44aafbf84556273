/-!
# UTF-8

Bytes are read as text character by character. Where no character can be read, the longest piece
that could still have begun one is passed over as one ill-formed part.

* `Utf8.parts` — the characters of a byte sequence, with `none` for each ill-formed part.
* `Utf8.decode?` — the text, if all of it is well formed.
* `Utf8.decodeLossy` — the text, with a replacement character for each ill-formed part.
-/

namespace PadRouter.Utf8

/-- A character that has been begun: the value so far, the bounds of the next byte, and how many
more bytes come after that one. -/
structure Begun where
  value : Nat
  low : UInt8 := 0x80
  high : UInt8 := 0xBF
  more : Nat

/-- What a byte says at the beginning of a character. -/
inductive Lead
  /-- It is a character by itself. -/
  | whole (c : Char)
  /-- It begins a longer one. -/
  | begun (b : Begun)
  /-- No character begins like this. -/
  | bad

/-- Classifies the first byte of a character. Overlong forms, surrogates and values beyond the last
character are kept out by the bounds of the second byte. -/
def lead (b : UInt8) : Lead :=
  let n := b.toNat
  if n < 0x80 then .whole (Char.ofNat n)
  else if n < 0xC2 then .bad
  else if n < 0xE0 then .begun { value := n - 0xC0, more := 0 }
  else if n = 0xE0 then .begun { value := 0, low := 0xA0, more := 1 }
  else if n = 0xED then .begun { value := 0xD, high := 0x9F, more := 1 }
  else if n < 0xF0 then .begun { value := n - 0xE0, more := 1 }
  else if n = 0xF0 then .begun { value := 0, low := 0x90, more := 2 }
  else if n < 0xF4 then .begun { value := n - 0xF0, more := 2 }
  else if n = 0xF4 then .begun { value := 4, high := 0x8F, more := 2 }
  else .bad

/-- The characters of a byte sequence, from a character on that may have been begun. -/
def partsFrom : Option Begun → List UInt8 → List (Option Char)
  | none, [] => []
  | some _, [] => [none]
  | none, b :: rest =>
    match lead b with
    | .whole c => some c :: partsFrom none rest
    | .begun p => partsFrom (some p) rest
    | .bad => none :: partsFrom none rest
  | some p, b :: rest =>
    if p.low ≤ b ∧ b ≤ p.high then
      let value := p.value * 64 + (b.toNat - 0x80)
      match p.more with
      | 0 => some (Char.ofNat value) :: partsFrom none rest
      | n + 1 => partsFrom (some { value := value, more := n }) rest
    else
      none :: match lead b with
        | .whole c => some c :: partsFrom none rest
        | .begun q => partsFrom (some q) rest
        | .bad => none :: partsFrom none rest

/-- The characters of a byte sequence, with `none` for each ill-formed part. -/
def parts (bytes : List UInt8) : List (Option Char) := partsFrom none bytes

/-- The text that the bytes stand for, if they are well formed. -/
def decode? (bytes : List UInt8) : Option String := ((parts bytes).mapM id).map String.ofList

/-- The text that the bytes stand for, with a replacement character for each ill-formed part. -/
def decodeLossy (bytes : List UInt8) : String :=
  String.ofList ((parts bytes).map fun c => c.getD '\ufffd')

/-- The bytes that stand for a text. -/
def encode (s : String) : List UInt8 := s.toUTF8.toList

end PadRouter.Utf8
