import DialogueScript.Text.Integer
import Mathlib.Data.List.Induction
import Mathlib.Data.Nat.Digits.Defs
import Mathlib.Tactic.Common

set_option autoImplicit false

/-!
# What a numeral denotes

A numeral is an optional sign and at least one decimal digit. What it denotes is said by the places
of its digits: the last one counts ones, the one before it tens, and so on. The reader works from
the other side, digit by digit with one number to keep, and is right for numerals of any length,
with any number of zeros in front. Reading a numeral into 64 bits succeeds exactly if what it
denotes lies in their range, at both ends of it.

## Main definitions

* `DialogueScript.Text.placeValue` — the number that some digits denote by their places.
* `DialogueScript.Text.Denotes` — a text is a numeral for an integer.

## Main results

* `DialogueScript.Text.natOfDigits_eq_placeValue` — the reader adds up the places.
* `DialogueScript.Text.readInt64?_eq_some_iff`, `DialogueScript.Text.readInt64?_eq_none_iff` — what
  is read, and what is not.
* `DialogueScript.Text.denotes_showInt` — a printed integer is a numeral for itself.
-/

namespace DialogueScript.Text

/-- The number that some digits denote: each counts as often as its place says, ones at the end. -/
def placeValue (digits : List Char) : Nat :=
  Nat.ofDigits 10 (digits.reverse.map digitValue)

/-- The text is a numeral for an integer: an optional sign, and then at least one digit. -/
inductive Denotes : List Char → Int → Prop
  /-- Without a sign. -/
  | unsigned {digits : List Char} (hne : digits ≠ []) (hdigits : ∀ c ∈ digits, c.isDigit = true) :
      Denotes digits (placeValue digits)
  /-- With a plus sign. -/
  | plus {digits : List Char} (hne : digits ≠ []) (hdigits : ∀ c ∈ digits, c.isDigit = true) :
      Denotes ('+' :: digits) (placeValue digits)
  /-- With a minus sign. -/
  | minus {digits : List Char} (hne : digits ≠ []) (hdigits : ∀ c ∈ digits, c.isDigit = true) :
      Denotes ('-' :: digits) (-placeValue digits)

/-! ## Digits -/

/-- **The reader adds up the places.**

**Proof sketch.** By induction on the digits from the last one on: it counts ones, and the places of
those before it are ten times as much. -/
lemma natOfDigits_eq_placeValue (digits : List Char) :
    natOfDigits digits = placeValue digits := by
  induction digits using List.reverseRecOn with
  | nil => rfl
  | append_singleton digits c ih =>
    rw [natOfDigits, List.foldl_append, ← natOfDigits, ih, placeValue, placeValue,
      List.reverse_append, List.map_append]
    simp only [List.foldl_cons, List.foldl_nil, List.reverse_singleton, List.map_singleton,
      List.singleton_append, Nat.ofDigits_cons]
    exact Nat.add_comm _ _

/-- A number is read exactly from some digits, and it is the one that they denote. -/
lemma readNat?_eq_some_iff {cs : List Char} {n : Nat} :
    readNat? cs = some n ↔ cs ≠ [] ∧ (∀ c ∈ cs, c.isDigit = true) ∧ n = placeValue cs := by
  rw [readNat?, natOfDigits_eq_placeValue]
  split
  · next h =>
    simp only [Bool.and_eq_true, Bool.not_eq_true', List.isEmpty_eq_false_iff,
      List.all_eq_true] at h
    rw [Option.some.injEq, eq_comm]
    exact ⟨fun hn => ⟨h.1, h.2, hn⟩, fun hn => hn.2.2⟩
  · next h =>
    simp only [Bool.and_eq_true, Bool.not_eq_true', List.isEmpty_eq_false_iff,
      List.all_eq_true] at h
    exact iff_of_false nofun fun hn => h ⟨hn.1, hn.2.1⟩

/-! ## Signs -/

/-- Digits do not begin with a sign. -/
lemma readInt?_of_digits {digits : List Char} (hdigits : ∀ c ∈ digits, c.isDigit = true) :
    readInt? digits = (readNat? digits).map Int.ofNat := by
  cases digits with
  | nil => rfl
  | cons c digits =>
    have hc : c.isDigit = true := hdigits c List.mem_cons_self
    unfold readInt?
    split
    · next heq =>
      cases heq
      cases hc
    · next heq =>
      cases heq
      cases hc
    · rfl

/-- **A text is read as the integer for which it is a numeral**, and no other text is read. -/
lemma readInt?_eq_some_iff {cs : List Char} {z : Int} : readInt? cs = some z ↔ Denotes cs z := by
  constructor
  · intro h
    unfold readInt? at h
    split at h
    · obtain ⟨n, hn, rfl⟩ := Option.map_eq_some_iff.mp h
      obtain ⟨hne, hdigits, rfl⟩ := readNat?_eq_some_iff.mp hn
      exact .plus hne hdigits
    · obtain ⟨n, hn, rfl⟩ := Option.map_eq_some_iff.mp h
      obtain ⟨hne, hdigits, rfl⟩ := readNat?_eq_some_iff.mp hn
      exact .minus hne hdigits
    · obtain ⟨n, hn, rfl⟩ := Option.map_eq_some_iff.mp h
      obtain ⟨hne, hdigits, rfl⟩ := readNat?_eq_some_iff.mp hn
      exact .unsigned hne hdigits
  · rintro (⟨hne, hdigits⟩ | ⟨hne, hdigits⟩ | ⟨hne, hdigits⟩)
    · rw [readInt?_of_digits hdigits, readNat?_eq_some_iff.mpr ⟨hne, hdigits, rfl⟩]
      rfl
    · rw [readInt?, readNat?_eq_some_iff.mpr ⟨hne, hdigits, rfl⟩]
      rfl
    · rw [readInt?, readNat?_eq_some_iff.mpr ⟨hne, hdigits, rfl⟩]
      rfl

/-- A text is a numeral for at most one integer. -/
lemma Denotes.unique {cs : List Char} {z z' : Int} (h : Denotes cs z) (h' : Denotes cs z') :
    z = z' := by
  rw [← readInt?_eq_some_iff] at h h'
  exact Option.some.inj (h.symm.trans h')

/-! ## The range of 64 bits -/

/-- A number fits exactly if it lies in the range of 64 bits with a sign. -/
lemma fitsInt64_iff {z : Int} : fitsInt64 z = true ↔ -2 ^ 63 ≤ z ∧ z < 2 ^ 63 := by
  have hleast : Int64.minValue.toInt = -2 ^ 63 := by decide
  have hgreatest : Int64.maxValue.toInt = 2 ^ 63 - 1 := by decide
  rw [fitsInt64, Bool.and_eq_true, decide_eq_true_iff, decide_eq_true_iff, hleast, hgreatest]
  omega

/-- **A text is read into 64 bits** as the number for which it is a numeral. -/
lemma readInt64?_eq_some_iff {cs : List Char} {n : Int64} :
    readInt64? cs = some n ↔ Denotes cs n.toInt := by
  constructor
  · intro h
    rw [readInt64?] at h
    split at h
    · next z hz =>
      split at h
      · next hfits =>
        cases h
        obtain ⟨hleast, hgreatest⟩ := fitsInt64_iff.mp hfits
        rw [Int64.toInt_ofInt_of_le hleast hgreatest]
        exact readInt?_eq_some_iff.mp hz
      · cases h
    · cases h
  · intro h
    have hfits : fitsInt64 n.toInt = true := fitsInt64_iff.mpr ⟨n.le_toInt, n.toInt_lt⟩
    rw [readInt64?, readInt?_eq_some_iff.mpr h]
    simp only [hfits, if_true, Int64.ofInt_toInt]

/-- **A text is not read** if it is no numeral, or one for an integer out of range. -/
lemma readInt64?_eq_none_iff {cs : List Char} :
    readInt64? cs = none ↔ ∀ z, Denotes cs z → z < -2 ^ 63 ∨ 2 ^ 63 ≤ z := by
  constructor
  · intro h z hz
    by_contra hrange
    have hleast : -2 ^ 63 ≤ z := by omega
    have hgreatest : z < 2 ^ 63 := by omega
    rw [← Int64.toInt_ofInt_of_le hleast hgreatest] at hz
    rw [readInt64?_eq_some_iff.mpr hz] at h
    cases h
  · intro h
    cases hread : readInt64? cs with
    | none => rfl
    | some n =>
      have hleast := n.le_toInt
      have hgreatest := n.toInt_lt
      have := h _ (readInt64?_eq_some_iff.mp hread)
      omega

/-! ## Printing -/

/-- A number is printed in digits only. -/
lemma isDigit_of_mem_showNat {n : Nat} {c : Char} (h : c ∈ showNat n) : c.isDigit = true :=
  Nat.isDigit_of_mem_toDigits (by decide) (by decide) h

/-- A number is printed with at least one digit. -/
lemma showNat_ne_nil (n : Nat) : showNat n ≠ [] :=
  Nat.toDigits_ne_nil

/-- The digits of a printed number denote that number. -/
lemma placeValue_showNat (n : Nat) : placeValue (showNat n) = n := by
  rw [← natOfDigits_eq_placeValue]
  exact Nat.ofDigitChars_toDigits (by decide) (by decide)

/-- **A printed integer is a numeral for itself.** -/
lemma denotes_showInt (z : Int) : Denotes (showInt z) z := by
  have hdigits : ∀ c ∈ showNat z.natAbs, c.isDigit = true := fun _ => isDigit_of_mem_showNat
  have hne := showNat_ne_nil z.natAbs
  rw [showInt]
  split
  · have hminus : Denotes ('-' :: showNat z.natAbs) (-placeValue (showNat z.natAbs)) :=
      .minus hne hdigits
    rw [placeValue_showNat] at hminus
    rwa [show (-(z.natAbs : Int)) = z by omega] at hminus
  · have hunsigned : Denotes (showNat z.natAbs) (placeValue (showNat z.natAbs)) :=
      .unsigned hne hdigits
    rw [placeValue_showNat] at hunsigned
    rwa [show (z.natAbs : Int) = z by omega] at hunsigned

end DialogueScript.Text
