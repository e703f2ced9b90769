/-!
# SliceRecovery.Text.Utf8 -- strict reading of UTF-8

A byte string either is the UTF-8 form of a text or has a longest well-formed beginning; strict
reading returns the text or the length of that beginning. The shortest-form and surrogate rules
are in the ranges of the second byte, as in the table of well-formed sequences of the Unicode
standard.
-/

namespace SliceRecovery.Text.Utf8

/-- A byte that continues a sequence. -/
def isContinuation (b : UInt8) : Bool := 0x80 ≤ b && b ≤ 0xBF

/-- The six payload bits of a continuation byte. -/
def payload (b : UInt8) : Nat := b.toNat % 64

/-- Whether `b` may follow `lead` in a sequence of three or four bytes. -/
def secondAllowed (lead b : UInt8) : Bool :=
  if lead = 0xE0 then 0xA0 ≤ b && b ≤ 0xBF
  else if lead = 0xED then 0x80 ≤ b && b ≤ 0x9F
  else if lead = 0xF0 then 0x90 ≤ b && b ≤ 0xBF
  else if lead = 0xF4 then 0x80 ≤ b && b ≤ 0x8F
  else isContinuation b

/-- The first scalar value of a byte string, the number of its bytes, and what follows. -/
def next? : List UInt8 → Option (Char × Nat × List UInt8)
  | [] => none
  | a :: r1 =>
    if a < 0x80 then some (Char.ofNat a.toNat, 1, r1)
    else if a < 0xC2 then none
    else match r1 with
      | [] => none
      | b :: r2 =>
        if a < 0xE0 then
          if isContinuation b then some (Char.ofNat (a.toNat % 32 * 64 + payload b), 2, r2)
          else none
        else if a > 0xF4 || !secondAllowed a b then none
        else match r2 with
          | [] => none
          | c :: r3 =>
            if !isContinuation c then none
            else if a < 0xF0 then
              some (Char.ofNat (a.toNat % 16 * 4096 + payload b * 64 + payload c), 3, r3)
            else match r3 with
              | [] => none
              | d :: r4 =>
                if !isContinuation d then none
                else some (Char.ofNat (a.toNat % 8 * 262144 + payload b * 4096
                  + payload c * 64 + payload d), 4, r4)

/-- Read scalar values until the bytes end or a sequence is ill-formed; `offset` bytes were read
before, giving the characters `read` (last first). -/
def readFrom : (fuel : Nat) → (offset : Nat) → (read : List Char) → List UInt8 →
    Except Nat (List Char)
  | _, _, read, [] => .ok read.reverse
  | 0, offset, _, _ :: _ => .error offset
  | fuel + 1, offset, read, b :: bs =>
    match next? (b :: bs) with
    | some (c, size, rest) => readFrom fuel (offset + size) (c :: read) rest
    | none => .error offset

/-- The text whose UTF-8 form the bytes are, or the length of the longest well-formed
beginning. -/
def read (bytes : List UInt8) : Except Nat String :=
  (readFrom bytes.length 0 [] bytes).map String.ofList

/-- The UTF-8 form of a text. -/
def bytes (text : String) : List UInt8 := text.toList.flatMap String.utf8EncodeChar

end SliceRecovery.Text.Utf8
