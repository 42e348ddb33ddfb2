import HermesConversation.Library.Text

/-!
# Decoding UTF-8 with replacement

`bytes.decode("utf-8", errors="replace")` as a machine that reads one byte at a time. A
sequence that breaks off is replaced as a whole by one U+FFFD, and the byte that broke it is
read afresh.
-/

namespace HermesConversation.Library.Utf8

/-- A character that is not complete: how many bytes it still needs, the range the next one
must be in, and the bits read so far. -/
structure Pending where
  need : ℕ
  low : ℕ
  high : ℕ
  bits : ℕ
  deriving DecidableEq

def replacement : Char := '\uFFFD'

def first (b : ℕ) : List Char × Option Pending :=
  if b < 0x80 then ([Char.ofNat b], none)
  else if 0xC2 ≤ b ∧ b ≤ 0xDF then ([], some ⟨1, 0x80, 0xBF, b - 0xC0⟩)
  else if b = 0xE0 then ([], some ⟨2, 0xA0, 0xBF, 0⟩)
  else if b = 0xED then ([], some ⟨2, 0x80, 0x9F, 0xD⟩)
  else if 0xE1 ≤ b ∧ b ≤ 0xEF then ([], some ⟨2, 0x80, 0xBF, b - 0xE0⟩)
  else if b = 0xF0 then ([], some ⟨3, 0x90, 0xBF, 0⟩)
  else if 0xF1 ≤ b ∧ b ≤ 0xF3 then ([], some ⟨3, 0x80, 0xBF, b - 0xF0⟩)
  else if b = 0xF4 then ([], some ⟨3, 0x80, 0x8F, 4⟩)
  else ([replacement], none)

def next (p : Pending) (b : ℕ) : List Char × Option Pending :=
  let bits := p.bits * 0x40 + (b - 0x80)
  if p.low ≤ b ∧ b ≤ p.high then
    if p.need ≤ 1 then ([Char.ofNat bits], none)
    else ([], some ⟨p.need - 1, 0x80, 0xBF, bits⟩)
  else (replacement :: (first b).1, (first b).2)

def decodeFrom : Option Pending → List UInt8 → List Char
  | none, [] => []
  | some _, [] => [replacement]
  | pending, b :: bytes =>
    let (chars, pending) := pending.elim (first b.toNat) fun p => next p b.toNat
    chars ++ decodeFrom pending bytes

def decode (bytes : List UInt8) : String := String.ofList (decodeFrom none bytes)

def ascii (text : String) : List UInt8 := text.toList.map fun c => UInt8.ofNat c.toNat

theorem decode_ascii {text : String} (h : ∀ c ∈ text.toList, c.toNat < 0x80) :
    decode (ascii text) = text := by
  have hchars : ∀ chars : List Char, (∀ c ∈ chars, c.toNat < 0x80) →
      decodeFrom none (chars.map fun c => UInt8.ofNat c.toNat) = chars := by
    intro chars
    induction chars with
    | nil => exact fun _ => rfl
    | cons c chars ih =>
      intro hall
      obtain ⟨hc, hrest⟩ := List.forall_mem_cons.mp hall
      have hbyte : (UInt8.ofNat c.toNat).toNat = c.toNat :=
        UInt8.toNat_ofNat_of_lt (Nat.lt_trans hc (by decide))
      have hfirst : first c.toNat = ([c], none) := by
        rw [first, if_pos hc, Char.ofNat_toNat]
      simp only [List.map_cons, decodeFrom, Option.elim_none, hbyte, hfirst, ih hrest,
        List.singleton_append]
  rw [decode, ascii, hchars text.toList h, String.ofList_toList]

example : decode [0xC3, 0xA9, 0xE2, 0x82, 0x41, 0xFF] = "é\uFFFDA\uFFFD" := by decide

end HermesConversation.Library.Utf8
