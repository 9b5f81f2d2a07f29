import Mathlib.Data.List.DropRight

/-!
# Text

A Rust `str` is a sequence of Unicode scalar values, which is what a Lean `Char` is, so text that
the program takes apart is a `List Char`. The operations are those of the standard library that
the program uses.
-/

namespace Lonesome

/-- A Rust `str`. -/
abbrev Str := List Char

namespace Str

/-- `str::split_once`: the text before and after the first `c`. -/
def splitOnce (c : Char) : Str → Option (Str × Str)
  | [] => none
  | d :: s => if d = c then some ([], s) else (splitOnce c s).map fun p => (d :: p.1, p.2)

theorem splitOnce_eq_some_iff {c : Char} {s a b : Str} :
    splitOnce c s = some (a, b) ↔ c ∉ a ∧ s = a ++ c :: b := by
  induction s generalizing a with
  | nil => simp [splitOnce]
  | cons d s ih =>
    rw [splitOnce]
    split
    · next hd =>
      subst hd
      cases a with
      | nil => simp
      | cons e a =>
        simp only [Option.some.injEq, Prod.mk.injEq, List.nil_eq, reduceCtorEq, false_and, false_iff]
        rintro ⟨hmem, heq⟩
        exact hmem ((List.cons.inj heq).1 ▸ List.mem_cons_self)
    · next hd =>
      constructor
      · intro h
        obtain ⟨⟨a', b'⟩, hrest, heq⟩ := Option.map_eq_some_iff.1 h
        cases heq
        obtain ⟨hmem, rfl⟩ := ih.1 hrest
        exact ⟨by simp [hmem, Ne.symm hd], rfl⟩
      · rintro ⟨hmem, heq⟩
        cases a with
        | nil => exact (hd (List.cons.inj heq).1).elim
        | cons e a =>
          rw [List.cons_append, List.cons.injEq] at heq
          rw [heq.1, ih.2 ⟨fun h => hmem (List.mem_cons_of_mem e h), heq.2⟩]
          rfl

theorem splitOnce_eq_none_iff {c : Char} {s : Str} : splitOnce c s = none ↔ c ∉ s := by
  induction s with
  | nil => simp [splitOnce]
  | cons d s ih =>
    rw [splitOnce]
    split
    · next hd => simp [hd]
    · next hd => simp [ih, Ne.symm hd]

/-- `str::split(c).next()`: the text before the first `c`, all of it when there is none. -/
def beforeFirst (c : Char) (s : Str) : Str :=
  s.takeWhile (· != c)

/-- `char::is_whitespace`. -/
def isWhitespace (c : Char) : Bool :=
  (9 ≤ c.toNat && c.toNat ≤ 13) || c.toNat == 32 || c.toNat == 0x85 || c.toNat == 0xA0 ||
    c.toNat == 0x1680 || (0x2000 ≤ c.toNat && c.toNat ≤ 0x200A) || c.toNat == 0x2028 ||
    c.toNat == 0x2029 || c.toNat == 0x202F || c.toNat == 0x205F || c.toNat == 0x3000

/-- `str::trim`. -/
def trim (s : Str) : Str :=
  (s.dropWhile isWhitespace).rdropWhile isWhitespace

/-- A text that is trimmed away is blank. -/
theorem isWhitespace_of_trim_eq_nil {s : Str} (h : trim s = []) : ∀ c ∈ s, isWhitespace c = true := by
  unfold trim at h
  have hall := List.rdropWhile_eq_nil_iff.1 h
  have hnil : s.dropWhile isWhitespace = [] := by
    cases hrest : s.dropWhile isWhitespace with
    | nil => rfl
    | cons d rest =>
      have hd := List.head_dropWhile_not isWhitespace (l := s) (by rw [hrest]; simp)
      simp only [hrest, List.head_cons] at hd
      rw [hall d (by rw [hrest]; exact List.mem_cons_self)] at hd
      cases hd
  exact List.dropWhile_eq_nil_iff.1 hnil

def stripPrefix (pat s : Str) : Option Str :=
  if pat.isPrefixOf s then some (s.drop pat.length) else none

/-- `trim_start_matches` with a text: every copy at the start goes. -/
def trimStartMatches (pat s : Str) : Str :=
  go s.length s
where
  go : Nat → Str → Str
    | 0, s => s
    | n + 1, s =>
      match stripPrefix pat s with
      | some rest => go n rest
      | none => s

/-- `str::trim_end_matches(c)`. -/
def trimEndMatches (c : Char) (s : Str) : Str :=
  s.rdropWhile (· == c)

/-- `str::to_ascii_lowercase`. -/
def toAsciiLowercase (s : Str) : Str :=
  s.map Char.toLower

/-- `str::eq_ignore_ascii_case`. -/
def eqIgnoreAsciiCase (a b : Str) : Bool :=
  a.toAsciiLowercase == b.toAsciiLowercase

/-- `str::is_ascii` -/
def isAscii (s : Str) : Bool :=
  s.all fun c => c.toNat < 128

theorem toLower_of_not_isUpper {c : Char} (h : c.isUpper = false) : c.toLower = c := by
  unfold Char.toLower
  rw [dif_neg]
  exact of_decide_eq_false h

theorem isLower_toLower {c : Char} (h : c.isUpper = true) : c.toLower.isLower = true := by
  have hrange := of_decide_eq_true h
  unfold Char.toLower
  rw [dif_pos hrange]
  obtain ⟨hlow, hhigh⟩ := hrange
  simp only [ge_iff_le, UInt32.le_iff_toNat_le] at hlow hhigh
  refine Bool.and_eq_true_iff.2 ⟨decide_eq_true ?_, decide_eq_true ?_⟩
  all_goals
    simp only [ge_iff_le, UInt32.le_iff_toNat_le, UInt32.toNat_add]
    simp at hlow hhigh ⊢
    omega

/-- Lowering the case neither makes nor removes a character that is not a letter. -/
theorem toLower_eq_iff {c d : Char} (hd : d.isAlpha = false) : c.toLower = d ↔ c = d := by
  obtain ⟨hupper, hlower⟩ := Bool.or_eq_false_iff.1 hd
  constructor
  · rintro rfl
    cases hc : c.isUpper with
    | false => exact (toLower_of_not_isUpper hc).symm
    | true =>
      rw [isLower_toLower hc] at hlower
      cases hlower
  · rintro rfl
    exact toLower_of_not_isUpper hupper

/-- A separator that is not a letter splits a text and its lower case at the same place. -/
theorem splitOnce_toAsciiLowercase {c : Char} (hc : c.isAlpha = false) (s : Str) :
    splitOnce c s.toAsciiLowercase =
      (splitOnce c s).map fun p => (p.1.toAsciiLowercase, p.2.toAsciiLowercase) := by
  induction s with
  | nil => rfl
  | cons d s ih =>
    show splitOnce c (d.toLower :: toAsciiLowercase s) = _
    rw [splitOnce, splitOnce, ih]
    by_cases hd : d = c
    · rw [if_pos ((toLower_eq_iff hc).2 hd), if_pos hd]
      rfl
    · rw [if_neg (fun h => hd ((toLower_eq_iff hc).1 h)), if_neg hd, Option.map_map, Option.map_map]
      rfl

/-- `u16::from_str`: an optional `+`, then digits, of a value below `65536`. -/
def parseU16 (s : Str) : Option Nat :=
  let digits := match s with
    | '+' :: rest => rest
    | _ => s
  let value := digits.foldl (fun n c => 10 * n + (c.toNat - '0'.toNat)) 0
  if digits.isEmpty || !digits.all Char.isDigit then none
  else if value < 65536 then some value
  else none

end Str

end Lonesome
