set_option relaxedAutoImplicit false
set_option autoImplicit false

/-!
# UTF-8

Names in a module are UTF-8. Where a name must be right, `String.fromUTF8?` refuses anything
else. Where a name is only looked at, every longest run of bytes that starts a character but
does not finish it, and every byte that starts none, is shown as one replacement character.

## Main definitions

* `Text.leadByte` — what the first byte of a character says about the bytes that follow.
* `Text.repairUtf8` — the text of any bytes, with replacement characters where needed.
-/

namespace TypeInventory.Text

/-- What the first byte of a character says about it. -/
inductive LeadByte where
  /-- The byte is the whole character. -/
  | single
  /-- `further` bytes follow, the first of which lies between `low` and `high`. The character
  has `bits` as its most significant part. -/
  | multiple (further bits low high : Nat)
  /-- No character starts with this byte. -/
  | invalid

/-- The first bytes of characters. Bytes that would start an overlong form, a surrogate or a
character beyond the last one are excluded by the range of the second byte. -/
def leadByte (b : Nat) : LeadByte :=
  if b < 0x80 then .single
  else if b < 0xC2 then .invalid
  else if b < 0xE0 then .multiple 1 (b - 0xC0) 0x80 0xBF
  else if b = 0xE0 then .multiple 2 0 0xA0 0xBF
  else if b = 0xED then .multiple 2 0xD 0x80 0x9F
  else if b < 0xF0 then .multiple 2 (b - 0xE0) 0x80 0xBF
  else if b = 0xF0 then .multiple 3 0 0x90 0xBF
  else if b < 0xF4 then .multiple 3 (b - 0xF0) 0x80 0xBF
  else if b = 0xF4 then .multiple 3 4 0x80 0x8F
  else .invalid

/-- The replacement character. -/
def replacement : Char := Char.ofNat 0xFFFD

/-- Whether a byte continues a character. -/
def isContinuation (b : UInt8) : Bool :=
  0x80 ≤ b.toNat && b.toNat ≤ 0xBF

/-- The six bits that a continuing byte adds to those before it. -/
def continueWith (bits : Nat) (b : UInt8) : Nat :=
  bits * 64 + (b.toNat - 0x80)

/-- The characters of a byte list, in front of which the characters `done` (last one first)
have been read already. -/
def repairInto (done : List Char) : List UInt8 → List Char
  | [] => done.reverse
  | b₀ :: r₀ =>
    match leadByte b₀.toNat with
    | .single => repairInto (Char.ofNat b₀.toNat :: done) r₀
    | .invalid => repairInto (replacement :: done) r₀
    | .multiple further bits low high =>
      match r₀ with
      | [] => (replacement :: done).reverse
      | b₁ :: r₁ =>
        if low ≤ b₁.toNat && b₁.toNat ≤ high then
          let bits₁ := continueWith bits b₁
          if further = 1 then
            repairInto (Char.ofNat bits₁ :: done) r₁
          else
            match r₁ with
            | [] => (replacement :: done).reverse
            | b₂ :: r₂ =>
              if isContinuation b₂ then
                let bits₂ := continueWith bits₁ b₂
                if further = 2 then
                  repairInto (Char.ofNat bits₂ :: done) r₂
                else
                  match r₂ with
                  | [] => (replacement :: done).reverse
                  | b₃ :: r₃ =>
                    if isContinuation b₃ then
                      repairInto (Char.ofNat (continueWith bits₂ b₃) :: done) r₃
                    else
                      repairInto (replacement :: done) (b₃ :: r₃)
              else
                repairInto (replacement :: done) (b₂ :: r₂)
        else
          repairInto (replacement :: done) (b₁ :: r₁)

/-- The text of any bytes, with replacement characters where they are not UTF-8. -/
def repairUtf8 (bytes : List UInt8) : String :=
  String.ofList (repairInto [] bytes)

end TypeInventory.Text
