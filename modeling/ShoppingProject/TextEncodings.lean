import Mathlib.Data.List.Basic
import Mathlib.Tactic.Common

/-!
# Encodings of a text

A text is a list of UTF-16 code units, of which some may be surrogates without a
partner. UTF-8 encodes code points and puts U+FFFD for such a surrogate; ASCII encodes
code units and puts a question mark for each one from 128 on.
-/
namespace TextEncodings

abbrev Text := List UInt16

def isAscii (u : UInt16) : Prop := u.toNat < 128

instance (u : UInt16) : Decidable (isAscii u) := inferInstanceAs (Decidable (_ < _))

/-- The code unit of `?`. -/
def questionMark : UInt16 := 63

def asciiByte (u : UInt16) : UInt8 := if isAscii u then u.toUInt8 else 63

/-- `Encoding.ASCII.GetBytes`. -/
def ascii (s : Text) : List UInt8 := s.map asciiByte

def isHighSurrogate (u : UInt16) : Bool := 0xD800 ≤ u && u ≤ 0xDBFF

def isLowSurrogate (u : UInt16) : Bool := 0xDC00 ≤ u && u ≤ 0xDFFF

/-- The code point of a code unit by itself. -/
def single (u : UInt16) : ℕ := if isHighSurrogate u || isLowSurrogate u then 0xFFFD else u.toNat

def surrogatePair (high low : UInt16) : ℕ :=
  0x10000 + (high.toNat - 0xD800) * 0x400 + (low.toNat - 0xDC00)

def codePoints : Text → List ℕ
  | [] => []
  | [u] => [single u]
  | u :: v :: s =>
    if isHighSurrogate u && isLowSurrogate v then surrogatePair u v :: codePoints s
    else single u :: codePoints (v :: s)

def utf8Bytes (n : ℕ) : List UInt8 :=
  if n < 0x80 then [.ofNat n]
  else if n < 0x800 then [.ofNat (0xC0 + n / 0x40), .ofNat (0x80 + n % 0x40)]
  else if n < 0x10000 then
    [.ofNat (0xE0 + n / 0x1000), .ofNat (0x80 + n / 0x40 % 0x40), .ofNat (0x80 + n % 0x40)]
  else
    [.ofNat (0xF0 + n / 0x40000), .ofNat (0x80 + n / 0x1000 % 0x40),
      .ofNat (0x80 + n / 0x40 % 0x40), .ofNat (0x80 + n % 0x40)]

/-- `Encoding.UTF8.GetBytes`. -/
def utf8 (s : Text) : List UInt8 := (codePoints s).flatMap utf8Bytes

example : utf8 [0x41, 0xE9, 0x20AC, 0xD83D, 0xDE00, 0xDE00] =
    [0x41, 0xC3, 0xA9, 0xE2, 0x82, 0xAC, 0xF0, 0x9F, 0x98, 0x80, 0xEF, 0xBF, 0xBD] := by decide

theorem not_surrogate_of_ascii {u : UInt16} (h : isAscii u) :
    isHighSurrogate u = false ∧ isLowSurrogate u = false := by
  unfold isAscii at h
  simp only [isHighSurrogate, isLowSurrogate, Bool.and_eq_false_iff, decide_eq_false_iff_not,
    UInt16.le_iff_toNat_le]
  constructor
  · left
    simp
    omega
  · left
    simp
    omega

theorem single_of_ascii {u : UInt16} (h : isAscii u) : single u = u.toNat := by
  obtain ⟨hhigh, hlow⟩ := not_surrogate_of_ascii h
  simp [single, hhigh, hlow]

/-- Only an ASCII code unit gives a code point below 128. -/
theorem single_ge {u : UInt16} (h : ¬ isAscii u) : 0x80 ≤ single u := by
  unfold isAscii at h
  unfold single
  split <;> omega

theorem surrogatePair_ge (high low : UInt16) : 0x10000 ≤ surrogatePair high low := by
  unfold surrogatePair
  omega

theorem utf8Bytes_of_lt {n : ℕ} (h : n < 0x80) : utf8Bytes n = [.ofNat n] := if_pos h

theorem utf8Bytes_length (n : ℕ) :
    1 ≤ (utf8Bytes n).length ∧ (0x80 ≤ n → 2 ≤ (utf8Bytes n).length) ∧
      (0x10000 ≤ n → 4 ≤ (utf8Bytes n).length) := by
  unfold utf8Bytes
  split_ifs <;> simp <;> omega

/-- The last byte of a longer sequence is none of ASCII. -/
theorem utf8Bytes_not_ascii {n : ℕ} (h : 0x80 ≤ n) : ∃ b ∈ utf8Bytes n, 128 ≤ b.toNat := by
  refine ⟨.ofNat (0x80 + n % 0x40), ?_, ?_⟩
  · unfold utf8Bytes
    rw [if_neg (by omega)]
    split_ifs <;> simp
  · rw [UInt8.toNat_ofNat']
    omega

theorem utf8_cons_cons (u v : UInt16) (s : Text) :
    utf8 (u :: v :: s) =
      if isHighSurrogate u && isLowSurrogate v then utf8Bytes (surrogatePair u v) ++ utf8 s
      else utf8Bytes (single u) ++ utf8 (v :: s) := by
  unfold utf8
  rw [codePoints]
  split <;> rw [List.flatMap_cons]

theorem utf8_singleton (u : UInt16) : utf8 [u] = utf8Bytes (single u) := by
  simp [utf8, codePoints]

/-- An ASCII code unit is encoded by itself. -/
theorem utf8_cons {u : UInt16} (h : isAscii u) (s : Text) :
    utf8 (u :: s) = u.toUInt8 :: utf8 s := by
  have hbyte : utf8Bytes (single u) = [u.toUInt8] := by
    rw [single_of_ascii h, utf8Bytes_of_lt h]
    rfl
  cases s with
  | nil =>
    rw [utf8_singleton, hbyte]
    rfl
  | cons v s =>
    rw [utf8_cons_cons, (not_surrogate_of_ascii h).1, hbyte]
    rfl

theorem utf8_of_ascii {s : Text} (h : ∀ u ∈ s, isAscii u) : utf8 s = ascii s := by
  induction s with
  | nil => rfl
  | cons u s ih =>
    simp only [List.mem_cons, forall_eq_or_imp] at h
    have hbyte : asciiByte u = u.toUInt8 := if_pos h.1
    rw [utf8_cons h.1, ih h.2, ← hbyte]
    rfl

/-- UTF-8 has a byte for each code unit, and more if one of them is not of ASCII. -/
theorem utf8_length (s : Text) :
    s.length ≤ (utf8 s).length ∧ ((∃ u ∈ s, ¬ isAscii u) → s.length < (utf8 s).length) := by
  induction s using codePoints.induct with
  | case1 => simp
  | case2 u =>
    obtain ⟨hone, htwo, -⟩ := utf8Bytes_length (single u)
    rw [utf8_singleton]
    refine ⟨hone, fun hu => ?_⟩
    have hu : ¬ isAscii u := by simpa using hu
    exact htwo (single_ge hu)
  | case3 u v s hpair ih =>
    obtain ⟨-, -, hfour⟩ := utf8Bytes_length (surrogatePair u v)
    have hfour := hfour (surrogatePair_ge u v)
    rw [utf8_cons_cons, if_pos hpair, List.length_append, List.length_cons, List.length_cons]
    constructor <;> omega
  | case4 u v s hpair ih =>
    obtain ⟨hone, htwo, -⟩ := utf8Bytes_length (single u)
    rw [utf8_cons_cons, if_neg hpair, List.length_append, List.length_cons]
    refine ⟨by omega, fun hany => ?_⟩
    by_cases hu : isAscii u
    · have hrest : ∃ w ∈ v :: s, ¬ isAscii w := by
        obtain ⟨w, hw, hnot⟩ := hany
        rcases List.mem_cons.mp hw with rfl | hw
        · exact absurd hu hnot
        · exact ⟨w, hw, hnot⟩
      have hlt := ih.2 hrest
      omega
    · have htwo := htwo (single_ge hu)
      omega

/-- The two encodings agree on the texts of ASCII and on no others. -/
theorem ascii_eq_utf8_iff (s : Text) : ascii s = utf8 s ↔ ∀ u ∈ s, isAscii u := by
  constructor
  · intro heq u hu
    by_contra hnot
    have hlt := (utf8_length s).2 ⟨u, hu, hnot⟩
    have hlength : (ascii s).length = s.length := List.length_map _
    rw [heq] at hlength
    omega
  · intro h
    exact (utf8_of_ascii h).symm

theorem isAscii_of_utf8 {s : Text} (h : ∀ b ∈ utf8 s, b.toNat < 128) : ∀ u ∈ s, isAscii u := by
  induction s using codePoints.induct with
  | case1 => simp
  | case2 u =>
    rw [utf8_singleton] at h
    simp only [List.mem_singleton, forall_eq]
    by_contra hu
    obtain ⟨b, hb, hge⟩ := utf8Bytes_not_ascii (single_ge hu)
    exact absurd (h b hb) (by omega)
  | case3 u v s hpair ih =>
    rw [utf8_cons_cons, if_pos hpair] at h
    have hge := surrogatePair_ge u v
    obtain ⟨b, hb, hge⟩ := utf8Bytes_not_ascii (show 0x80 ≤ surrogatePair u v by omega)
    exact absurd (h b (List.mem_append_left _ hb)) (by omega)
  | case4 u v s hpair ih =>
    rw [utf8_cons_cons, if_neg hpair] at h
    have hrest := ih fun b hb => h b (List.mem_append_right _ hb)
    intro w hw
    rcases List.mem_cons.mp hw with rfl | hw
    · by_contra hu
      obtain ⟨b, hb, hge⟩ := utf8Bytes_not_ascii (single_ge hu)
      exact absurd (h b (List.mem_append_left _ hb)) (by omega)
    · exact hrest w hw

theorem asciiByte_lt (u : UInt16) : (asciiByte u).toNat < 128 := by
  unfold asciiByte
  split
  · rename_i h
    rw [UInt16.toNat_toUInt8]
    unfold isAscii at h
    omega
  · decide

theorem asciiByte_toNat {u : UInt16} (h : isAscii u) : (asciiByte u).toNat = u.toNat := by
  have hlt : u.toNat < 128 := h
  rw [asciiByte, if_pos h, UInt16.toNat_toUInt8]
  omega

/-- The byte of an ASCII code unit comes from no other one, or else it is the question mark. -/
theorem asciiByte_eq {u v : UInt16} (hu : isAscii u) (h : asciiByte v = asciiByte u) :
    v = u ∨ (u = questionMark ∧ ¬ isAscii v) := by
  have hnat := congrArg UInt8.toNat h
  rw [asciiByte_toNat hu] at hnat
  by_cases hv : isAscii v
  · rw [asciiByte_toNat hv] at hnat
    exact .inl (UInt16.toNat_inj.mp hnat)
  · have hmark : (asciiByte v).toNat = 63 := by rw [asciiByte, if_neg hv]; rfl
    refine .inr ⟨UInt16.toNat_inj.mp ?_, hv⟩
    rw [← hnat, hmark]
    rfl

/-- A text of ASCII is known by its bytes among the texts of ASCII, and among all texts
if it has no question mark. -/
theorem ascii_injective {s t : Text} (hs : ∀ u ∈ s, isAscii u)
    (ht : (∀ u ∈ t, isAscii u) ∨ questionMark ∉ s) (h : ascii t = ascii s) : t = s := by
  induction s generalizing t with
  | nil => exact List.map_eq_nil_iff.mp h
  | cons u s ih =>
    obtain ⟨v, t', rfl, hv, ht'⟩ := List.map_eq_cons_iff.mp h
    simp only [List.mem_cons, forall_eq_or_imp, not_or] at hs ht
    have hhead : v = u := by
      rcases asciiByte_eq hs.1 hv with heq | ⟨hmark, hnot⟩
      · exact heq
      · rcases ht with ht | ht
        · exact absurd ht.1 hnot
        · exact absurd hmark.symm ht.1
    rw [hhead, ih hs.2 (ht.imp And.right And.right) ht']

/-- A question mark can be exchanged for a letter outside ASCII. -/
theorem exists_same_ascii {s : Text} (h : questionMark ∈ s) : ∃ t, t ≠ s ∧ ascii t = ascii s := by
  obtain ⟨u, v, rfl⟩ := List.append_of_mem h
  refine ⟨u ++ 233 :: v, fun heq => ?_, ?_⟩
  · have hcons := List.append_cancel_left heq
    exact absurd (List.cons.inj hcons).1 (by decide)
  · have hbyte : asciiByte 233 = asciiByte questionMark := by decide
    simp [ascii, hbyte]

/-- A text of ASCII is the only one with its UTF-8. -/
theorem utf8_injective {s t : Text} (hs : ∀ u ∈ s, isAscii u) (h : utf8 t = utf8 s) :
    t = s := by
  have hlow : ∀ b ∈ utf8 t, b.toNat < 128 := by
    intro b hb
    rw [h, utf8_of_ascii hs] at hb
    obtain ⟨u, -, rfl⟩ := List.mem_map.mp hb
    exact asciiByte_lt u
  have ht := isAscii_of_utf8 hlow
  rw [utf8_of_ascii ht, utf8_of_ascii hs] at h
  exact ascii_injective hs (.inl ht) h

end TextEncodings
