import Lonesome.Lib.Distinct
import Lonesome.Lib.KeyedSet
import Lonesome.Server.ErrorPageStore
import Mathlib.Data.Nat.Digits.Defs

/-!
# What a status spec denotes

`parse_status_spec` of `src/server/error_page_store.rs` against the texts that it is for: a list of
codes and ranges, each a `u16` numeral or two of them around a `-`. `SpecCodes` reads the codes off
the text without the parser; the parser accepts exactly the texts that denote error codes, and keeps
each code where it is named first (`parseStatusSpec_exact`). Since only a blank text denotes
nothing, the empty list, which stands for any status, comes from a blank text only.

The loop over a range is one over an iterator of `u16`, which has to end at `65535` too
(`forEach_eq_foldlM`).
-/

namespace Lonesome

/-! ## Numerals -/

/-- A numeral of a `u16`: an optional `+`, then digits, of a value below `65536`. -/
def U16Numeral (s : Str) (n : Nat) : Prop :=
  ∃ digits : Str, (s = digits ∨ s = '+' :: digits) ∧ digits ≠ [] ∧ (∀ c ∈ digits, c.isDigit = true) ∧
    n = Nat.ofDigits 10 (digits.map fun c => c.toNat - '0'.toNat).reverse ∧ n < 65536

namespace Str

theorem foldl_digits (digits : Str) :
    digits.foldl (fun n c => 10 * n + (c.toNat - '0'.toNat)) 0 =
      Nat.ofDigits 10 (digits.map fun c => c.toNat - '0'.toNat).reverse := by
  induction digits using List.reverseRecOn with
  | nil => rfl
  | append_singleton digits c ih =>
    rw [List.foldl_append, List.foldl_cons, List.foldl_nil, ih, List.map_append, List.reverse_append,
      List.map_cons, List.map_nil, List.reverse_singleton, List.singleton_append, Nat.ofDigits_cons,
      Nat.add_comm]

/-- The text without its sign. -/
theorem parseU16_eq (s : Str) : ∃ digits : Str,
    (s = '+' :: digits ∨ (∀ rest, s ≠ '+' :: rest) ∧ s = digits) ∧
    s.parseU16 =
      if digits.isEmpty || !digits.all Char.isDigit then none
      else if Nat.ofDigits 10 (digits.map fun c => c.toNat - '0'.toNat).reverse < 65536 then
        some (Nat.ofDigits 10 (digits.map fun c => c.toNat - '0'.toNat).reverse)
      else none := by
  unfold parseU16
  split
  · next rest => exact ⟨rest, .inl rfl, by simp only [foldl_digits]⟩
  · next hplus => exact ⟨s, .inr ⟨hplus, rfl⟩, by simp only [foldl_digits]⟩

theorem parseU16_eq_some_iff {s : Str} {n : Nat} : s.parseU16 = some n ↔ U16Numeral s n := by
  obtain ⟨digits, hs, heq⟩ := parseU16_eq s
  rw [heq]
  constructor
  · intro h
    split at h
    · cases h
    · next hdigits =>
      split at h
      · next hlt =>
        rw [Bool.or_eq_true, not_or, List.isEmpty_iff, Bool.not_eq_true', Bool.not_eq_false,
          List.all_eq_true] at hdigits
        cases h
        exact ⟨digits, hs.symm.imp (·.2) id, hdigits.1, hdigits.2, rfl, hlt⟩
      · cases h
  · rintro ⟨digits', hs', hne, hall, hn, hlt⟩
    -- a sign is not a digit, so the text splits in one way only
    have hsame : digits' = digits := by
      rcases hs with rfl | ⟨hplus, rfl⟩
      · rcases hs' with rfl | h
        · have hsign := hall '+' List.mem_cons_self
          cases hsign
        · exact (List.cons.inj h).2.symm
      · rcases hs' with h | h
        · exact h.symm
        · exact (hplus digits' h).elim
    subst hsame
    have hdigits : ¬ (digits'.isEmpty || !digits'.all Char.isDigit) = true := by
      rw [Bool.or_eq_true, not_or, List.isEmpty_iff, Bool.not_eq_true', Bool.not_eq_false,
        List.all_eq_true]
      exact ⟨hne, hall⟩
    rw [if_neg hdigits, ← hn, if_pos hlt]

end Str

theorem U16Numeral.lt {s : Str} {n : Nat} (h : U16Numeral s n) : n < 65536 :=
  h.choose_spec.2.2.2.2

/-- A numeral has no sign but the `+`. -/
theorem U16Numeral.not_mem_dash {s : Str} {n : Nat} (h : U16Numeral s n) : '-' ∉ s := by
  obtain ⟨digits, hs, -, hall, -⟩ := h
  have hdigits : '-' ∉ digits := fun hmem => by cases hall '-' hmem
  rcases hs with rfl | rfl
  · exact hdigits
  · simpa using hdigits

theorem not_u16Numeral_nil {n : Nat} : ¬ U16Numeral [] n := by
  rintro ⟨digits, hs | hs, hne, -⟩
  · exact hne hs.symm
  · cases hs

namespace ErrorPages

open Lonesome.Lib

/-! ## Tokens -/

/-- The codes that a trimmed token names, from the first to the last. -/
def Denotes (token : Str) (range : Nat × Nat) : Prop :=
  U16Numeral token range.1 ∧ range.2 = range.1 ∨
  ∃ a b, '-' ∉ a ∧ token = a ++ '-' :: b ∧ U16Numeral (Str.trim a) range.1 ∧
    U16Numeral (Str.trim b) range.2 ∧ range.1 ≤ range.2

/-- The codes of a range. -/
def codesOf (range : Nat × Nat) : List Nat :=
  List.range' range.1 (range.2 + 1 - range.1)

theorem mem_codesOf {range : Nat × Nat} {c : Nat} : c ∈ codesOf range ↔ range.1 ≤ c ∧ c ≤ range.2 := by
  rw [codesOf, List.mem_range'_1]
  omega

/-- The codes that a spec names, in the order of the text. -/
def SpecCodes (spec : Str) (codes : List Nat) : Prop :=
  ∃ ranges, List.Forall₂ (fun token range => Denotes (Str.trim token) range) (spec.splitOn ',') ranges ∧
    codes = ranges.flatMap codesOf

theorem not_denotes_nil {range : Nat × Nat} : ¬ Denotes [] range := by
  rintro (⟨h, -⟩ | ⟨a, b, -, h, -⟩)
  · exact not_u16Numeral_nil h
  · simp at h

theorem Denotes.le {token : Str} {range : Nat × Nat} (h : Denotes token range) : range.1 ≤ range.2 := by
  rcases h with ⟨-, h⟩ | ⟨-, -, -, -, -, -, h⟩
  · exact h.ge
  · exact h

theorem Denotes.lt {token : Str} {range : Nat × Nat} (h : Denotes token range) : range.2 < 65536 := by
  rcases h with ⟨hn, h⟩ | ⟨_, _, -, -, -, hn, -⟩
  · exact h ▸ hn.lt
  · exact hn.lt

theorem parseCode_eq_ok_iff {spec code : Str} {n : Nat} :
    parseCode spec code = .ok n ↔ U16Numeral code n := by
  rw [← Str.parseU16_eq_some_iff]
  unfold parseCode
  cases code.parseU16 with
  | none => simp
  | some m => simp

/-- The codes on both sides of the dash. -/
theorem parseRange_dash {spec token a b : Str} (hsplit : token.splitOnce '-' = some (a, b))
    {range : Nat × Nat} : parseRange spec token = .ok range ↔
      U16Numeral (Str.trim a) range.1 ∧ U16Numeral (Str.trim b) range.2 ∧ range.1 ≤ range.2 := by
  rw [← @parseCode_eq_ok_iff spec, ← @parseCode_eq_ok_iff spec]
  unfold parseRange
  rw [hsplit]
  dsimp only
  by_cases hblank : ((Str.trim a).isEmpty || (Str.trim b).isEmpty) = true
  · rw [if_pos hblank]
    constructor
    · intro h
      cases h
    · rintro ⟨ha, hb, -⟩
      rw [parseCode_eq_ok_iff] at ha hb
      rcases Bool.or_eq_true_iff.1 hblank with h | h
      · rw [List.isEmpty_iff.1 h] at ha
        exact (not_u16Numeral_nil ha).elim
      · rw [List.isEmpty_iff.1 h] at hb
        exact (not_u16Numeral_nil hb).elim
  · rw [if_neg hblank]
    cases parseCode spec (Str.trim a) with
    | error e =>
      constructor
      · intro h
        cases h
      · rintro ⟨h, -⟩
        cases h
    | ok first =>
      cases parseCode spec (Str.trim b) with
      | error e =>
        constructor
        · intro h
          cases h
        · rintro ⟨-, h, -⟩
          cases h
      | ok last =>
        by_cases hgt : first > last
        · constructor
          · intro h
            simp only [bind, Except.bind, if_pos hgt] at h
            cases h
          · rintro ⟨ha, hb, hle⟩
            cases ha
            cases hb
            omega
        · simp only [bind, Except.bind, if_neg hgt]
          constructor
          · intro h
            cases h
            exact ⟨rfl, rfl, not_lt.1 hgt⟩
          · rintro ⟨ha, hb, -⟩
            cases ha
            cases hb
            rfl

theorem parseRange_eq_ok_iff {spec token : Str} {range : Nat × Nat} :
    parseRange spec token = .ok range ↔ Denotes token range := by
  cases hsplit : token.splitOnce '-' with
  | none =>
    have hno := Str.splitOnce_eq_none_iff.1 hsplit
    have hcode : parseRange spec token = (fun code => (code, code)) <$> parseCode spec token := by
      unfold parseRange
      rw [hsplit]
      cases parseCode spec token <;> rfl
    rw [hcode]
    constructor
    · intro h
      cases hparse : parseCode spec token with
      | error e =>
        rw [hparse] at h
        cases h
      | ok code =>
        rw [hparse] at h
        cases h
        exact .inl ⟨parseCode_eq_ok_iff.1 hparse, rfl⟩
    · rintro (⟨h, hsame⟩ | ⟨a, b, -, heq, -⟩)
      · rw [parseCode_eq_ok_iff.2 h]
        exact congrArg Except.ok (Prod.ext rfl hsame.symm)
      · exact (hno (by rw [heq]; simp)).elim
  | some p =>
    obtain ⟨a, b⟩ := p
    rw [parseRange_dash hsplit]
    obtain ⟨ha, rfl⟩ := Str.splitOnce_eq_some_iff.1 hsplit
    constructor
    · intro h
      exact .inr ⟨a, b, ha, rfl, h⟩
    · rintro (⟨h, -⟩ | ⟨a', b', ha', heq, h⟩)
      · exact (h.not_mem_dash (by simp)).elim
      · have hsplit' := Str.splitOnce_eq_some_iff.2 ⟨ha', heq⟩
        rw [hsplit] at hsplit'
        cases hsplit'
        exact h

theorem Denotes.unique {token : Str} {range range' : Nat × Nat} (h : Denotes token range)
    (h' : Denotes token range') : range = range' := by
  rw [← @parseRange_eq_ok_iff []] at h h'
  exact Except.ok.inj (h.symm.trans h')

/-! ## The loop over a range -/

/-- `RangeInclusive<u16>` -/
structure RangeInclusive where
  start : UInt16
  last : UInt16
  exhausted : Bool

namespace RangeInclusive

/-- `start..=last` -/
def new (start last : UInt16) : RangeInclusive := ⟨start, last, false⟩

def next (range : RangeInclusive) : Option (UInt16 × RangeInclusive) :=
  if range.exhausted || range.start > range.last then none
  else if range.start < range.last then some (range.start, { range with start := range.start + 1 })
  else some (range.start, { range with exhausted := true })

/-- `for code in range`, given up after a number of rounds; an error of the body ends it. -/
def forEach {σ : Type} (body : σ → Nat → Except String σ) :
    Nat → RangeInclusive → σ → Option (Except String σ)
  | 0, _, _ => none
  | fuel + 1, range, s =>
    match range.next with
    | none => some (.ok s)
    | some (code, range) =>
      match body s code.toNat with
      | .error e => some (.error e)
      | .ok s => forEach body fuel range s

variable {σ : Type} {body : σ → Nat → Except String σ} {start last : UInt16}

theorem next_of_lt (h : start < last) : (new start last).next = some (start, new (start + 1) last) := by
  have hgt : ¬ start > last := fun hc => absurd (UInt16.lt_iff_toNat_lt.1 hc)
    (not_lt.2 (UInt16.lt_iff_toNat_lt.1 h).le)
  simp [next, new, h, hgt]

theorem next_of_eq : (new last last).next = some (last, ⟨last, last, true⟩) := by
  simp [next, new]

/-- The codes that the loop goes through, and that it ends: the last round of a range up to `65535`
does not step past the greatest `u16`. -/
theorem forEach_eq_foldlM (h : start ≤ last) {fuel : Nat} (hfuel : last.toNat - start.toNat + 2 ≤ fuel)
    (s : σ) : forEach body fuel (new start last) s =
      some ((codesOf (start.toNat, last.toNat)).foldlM body s) := by
  obtain ⟨n, hn⟩ : ∃ n, last.toNat - start.toNat = n := ⟨_, rfl⟩
  rw [UInt16.le_iff_toNat_le] at h
  have hcodes : codesOf (start.toNat, last.toNat) = List.range' start.toNat (n + 1) := by
    unfold codesOf
    congr 1
    simp only
    omega
  rw [hcodes, List.range'_succ, List.foldlM_cons]
  induction n generalizing start fuel s with
  | zero =>
    obtain rfl : start = last := UInt16.toNat_inj.1 (by omega)
    obtain ⟨fuel, rfl⟩ : ∃ k, fuel = k + 2 := ⟨fuel - 2, by omega⟩
    rw [forEach, next_of_eq]
    dsimp only
    cases body s start.toNat with
    | error e => rfl
    | ok s => rfl
  | succ n ih =>
    obtain ⟨fuel, rfl⟩ : ∃ k, fuel = k + 1 := ⟨fuel - 1, by omega⟩
    have hlt : start < last := UInt16.lt_iff_toNat_lt.2 (by omega)
    have hsucc : (start + 1).toNat = start.toNat + 1 := by
      have hmax := last.toNat_lt
      rw [UInt16.toNat_add]
      exact Nat.mod_eq_of_lt (by simp only [UInt16.toNat_ofNat]; omega)
    rw [forEach, next_of_lt hlt]
    dsimp only
    cases body s start.toNat with
    | error e => rfl
    | ok s =>
      dsimp only
      rw [ih (by omega) (by omega) s (by omega)]
      · rw [hsucc]
        rfl
      · unfold codesOf
        congr 1
        simp only
        omega

end RangeInclusive

/-! ## The parser -/

variable {spec : Str} {statuses v : List Nat}

theorem pushCode_eq_ok_iff {code : Nat} :
    pushCode spec statuses code = .ok v ↔ (400 ≤ code ∧ code ≤ 599) ∧ v = pushNew statuses code := by
  unfold pushCode pushNew
  split
  · next h => simp [h, eq_comm]
  · next h => simp [h]

/-- The codes of one token: each has to be an error code, and is kept when it is new. -/
theorem foldlM_pushCode_eq_ok_iff {codes : List Nat} :
    codes.foldlM (pushCode spec) statuses = .ok v ↔
      (∀ c ∈ codes, 400 ≤ c ∧ c ≤ 599) ∧ v = codes.foldl pushNew statuses := by
  induction codes generalizing statuses with
  | nil =>
    rw [List.foldlM_nil]
    simp [pure, Except.pure, eq_comm]
  | cons c codes ih =>
    rw [List.foldlM_cons, List.forall_mem_cons, List.foldl_cons]
    cases hc : pushCode spec statuses c with
    | error e =>
      constructor
      · intro h
        cases h
      · rintro ⟨⟨hrange, -⟩, -⟩
        rw [pushCode_eq_ok_iff.2 ⟨hrange, rfl⟩] at hc
        cases hc
    | ok kept =>
      obtain ⟨hrange, rfl⟩ := pushCode_eq_ok_iff.1 hc
      refine ih.trans ?_
      rw [and_iff_right hrange]

theorem pushToken_eq_ok_iff {token : Str} :
    pushToken spec statuses token = .ok v ↔ ∃ range, Denotes (Str.trim token) range ∧
      (∀ c ∈ codesOf range, 400 ≤ c ∧ c ≤ 599) ∧ v = (codesOf range).foldl pushNew statuses := by
  unfold pushToken
  dsimp only
  by_cases hblank : (Str.trim token).isEmpty = true
  · rw [if_pos hblank]
    constructor
    · intro h
      cases h
    · rintro ⟨range, h, -⟩
      rw [List.isEmpty_iff.1 hblank] at h
      exact (not_denotes_nil h).elim
  · rw [if_neg hblank]
    cases hrange : parseRange spec (Str.trim token) with
    | error e =>
      constructor
      · intro h
        cases h
      · rintro ⟨range, h, -⟩
        rw [parseRange_eq_ok_iff.2 h] at hrange
        cases hrange
    | ok range =>
      refine (@foldlM_pushCode_eq_ok_iff _ _ _ (codesOf range)).trans ?_
      constructor
      · intro h
        exact ⟨range, parseRange_eq_ok_iff.1 hrange, h⟩
      · rintro ⟨range', hdenotes, h⟩
        rw [parseRange_eq_ok_iff.2 hdenotes] at hrange
        cases hrange
        exact h

/-- The tokens of a spec, one after the other. -/
theorem foldlM_pushToken_eq_ok_iff {tokens : List Str} :
    tokens.foldlM (pushToken spec) statuses = .ok v ↔ ∃ ranges,
      List.Forall₂ (fun token range => Denotes (Str.trim token) range) tokens ranges ∧
      (∀ c ∈ ranges.flatMap codesOf, 400 ≤ c ∧ c ≤ 599) ∧
      v = (ranges.flatMap codesOf).foldl pushNew statuses := by
  induction tokens generalizing statuses with
  | nil =>
    rw [List.foldlM_nil]
    constructor
    · intro h
      cases h
      exact ⟨[], .nil, by simp, rfl⟩
    · rintro ⟨ranges, hranges, -, rfl⟩
      cases hranges
      rfl
  | cons token tokens ih =>
    rw [List.foldlM_cons]
    cases htoken : pushToken spec statuses token with
    | error e =>
      constructor
      · intro h
        cases h
      · rintro ⟨_, hranges, hall, -⟩
        cases hranges with
        | cons hr _ =>
          rw [List.flatMap_cons, List.forall_mem_append] at hall
          rw [pushToken_eq_ok_iff.2 ⟨_, hr, hall.1, rfl⟩] at htoken
          cases htoken
    | ok kept =>
      refine ih.trans ?_
      obtain ⟨range, hrange, hcodes, rfl⟩ := pushToken_eq_ok_iff.1 htoken
      constructor
      · rintro ⟨ranges, hranges, hall, rfl⟩
        refine ⟨range :: ranges, .cons hrange hranges, ?_, ?_⟩
        · rw [List.flatMap_cons, List.forall_mem_append]
          exact ⟨hcodes, hall⟩
        · rw [List.flatMap_cons, List.foldl_append]
      · rintro ⟨_, hranges, hall, rfl⟩
        cases hranges with
        | @cons _ range' _ ranges hr hrest =>
          rw [List.flatMap_cons, List.forall_mem_append] at hall
          obtain rfl := hrange.unique hr
          exact ⟨ranges, hrest, hall.2, by rw [List.flatMap_cons, List.foldl_append]⟩

/-- A blank spec names no codes at all. -/
theorem not_specCodes_of_blank (hblank : Str.trim spec = []) {codes : List Nat} :
    ¬ SpecCodes spec codes := by
  rintro ⟨ranges, hranges, -⟩
  have hno : ∀ c ∈ spec, (c == ',') = false := by
    intro c hc
    refine beq_false_of_ne ?_
    rintro rfl
    cases Str.isWhitespace_of_trim_eq_nil hblank ',' hc
  rw [List.splitOn_eq_splitOnP, List.splitOnP_eq_singleton hno] at hranges
  cases hranges with
  | cons h _ =>
    rw [hblank] at h
    exact not_denotes_nil h

/-- A spec that names codes names one at least. -/
theorem SpecCodes.ne_nil {codes : List Nat} (h : SpecCodes spec codes) : codes ≠ [] := by
  obtain ⟨ranges, hranges, rfl⟩ := h
  intro hnil
  cases htokens : spec.splitOn ',' with
  | nil => exact List.splitOn_ne_nil ',' spec htokens
  | cons token tokens =>
    rw [htokens] at hranges
    cases hranges with
    | @cons _ range _ ranges hr _ =>
      rw [List.flatMap_cons, List.append_eq_nil_iff] at hnil
      have hmem : range.1 ∈ codesOf range := mem_codesOf.2 ⟨le_rfl, hr.le⟩
      rw [hnil.1] at hmem
      cases hmem

theorem parseStatusSpec_eq_ok_iff :
    parseStatusSpec spec = .ok v ↔ Str.trim spec = [] ∧ v = [] ∨
      ∃ codes, SpecCodes spec codes ∧ (∀ c ∈ codes, 400 ≤ c ∧ c ≤ 599) ∧ FirstOccurrences codes v := by
  unfold parseStatusSpec
  by_cases hblank : Str.trim spec = []
  · rw [if_pos (List.isEmpty_iff.2 hblank)]
    constructor
    · intro h
      cases h
      exact .inl ⟨hblank, rfl⟩
    · rintro (⟨-, rfl⟩ | ⟨codes, h, -⟩)
      · rfl
      · exact (not_specCodes_of_blank hblank h).elim
  · rw [if_neg fun h => hblank (List.isEmpty_iff.1 h), foldlM_pushToken_eq_ok_iff]
    constructor
    · rintro ⟨ranges, hranges, hall, hv⟩
      exact .inr ⟨_, ⟨ranges, hranges, rfl⟩, hall, distinct_eq_iff.1 hv.symm⟩
    · rintro (⟨h, -⟩ | ⟨_, ⟨ranges, hranges, rfl⟩, hall, hv⟩)
      · exact (hblank h).elim
      · exact ⟨ranges, hranges, hall, (distinct_eq_iff.2 hv).symm⟩

/-- The codes of a spec are those of its tokens. -/
theorem SpecCodes.mem_iff {codes : List Nat} (h : SpecCodes spec codes) (c : Nat) :
    c ∈ codes ↔ ∃ token ∈ spec.splitOn ',', ∃ range, Denotes (Str.trim token) range ∧
      range.1 ≤ c ∧ c ≤ range.2 := by
  obtain ⟨ranges, hranges, rfl⟩ := h
  rw [List.mem_flatMap]
  constructor
  · rintro ⟨range, hmem, hc⟩
    obtain ⟨token, htoken, hdenotes⟩ := forall₂_mem_right hranges hmem
    exact ⟨token, htoken, range, hdenotes, mem_codesOf.1 hc⟩
  · rintro ⟨token, htoken, range, hdenotes, hc⟩
    obtain ⟨range', hmem, hdenotes'⟩ := forall₂_mem_left hranges htoken
    obtain rfl := hdenotes.unique hdenotes'
    exact ⟨range, hmem, mem_codesOf.2 hc⟩

/-- The loop over the codes of a token ends, with what `pushToken` takes it to end with. -/
theorem forEach_pushCode {token : Str} {range : Nat × Nat} (h : parseRange spec token = .ok range)
    (statuses : List Nat) :
    (RangeInclusive.new (.ofNat range.1) (.ofNat range.2)).forEach (pushCode spec)
      (range.2 - range.1 + 2) statuses = some ((codesOf range).foldlM (pushCode spec) statuses) := by
  have hdenotes := parseRange_eq_ok_iff.1 h
  have hle := hdenotes.le
  have hlt := hdenotes.lt
  have hfirst : (UInt16.ofNat range.1).toNat = range.1 := UInt16.toNat_ofNat_of_lt (lt_of_le_of_lt hle hlt)
  have hlast : (UInt16.ofNat range.2).toNat = range.2 := UInt16.toNat_ofNat_of_lt hlt
  rw [RangeInclusive.forEach_eq_foldlM]
  · rw [hfirst, hlast]
  · rw [UInt16.le_iff_toNat_le, hfirst, hlast]
    exact hle
  · rw [hfirst, hlast]

/-- **Status specs**: a spec is accepted exactly when it is blank or each of its tokens names error
codes. It is then read as the codes of its tokens, each once and where it is named first, and as no
codes only when it is blank. Every other spec is an error, and the loop over a range ends. -/
theorem parseStatusSpec_exact (spec : Str) :
    (∀ v, parseStatusSpec spec = .ok v ↔ Str.trim spec = [] ∧ v = [] ∨
      ∃ codes, SpecCodes spec codes ∧ (∀ c ∈ codes, 400 ≤ c ∧ c ≤ 599) ∧
        v.Nodup ∧ v.Pairwise (fun a b => codes.idxOf a < codes.idxOf b) ∧
        ∀ c, c ∈ v ↔ ∃ token ∈ spec.splitOn ',', ∃ range, Denotes (Str.trim token) range ∧
          range.1 ≤ c ∧ c ≤ range.2) ∧
    (∀ v, parseStatusSpec spec = .ok v → Str.trim spec ≠ [] → v ≠ []) ∧
    ((∃ e, parseStatusSpec spec = .error e) ↔ Str.trim spec ≠ [] ∧
      ¬ ∃ codes, SpecCodes spec codes ∧ ∀ c ∈ codes, 400 ≤ c ∧ c ≤ 599) ∧
    ∀ token range, parseRange spec token = .ok range → ∀ statuses,
      (RangeInclusive.new (.ofNat range.1) (.ofNat range.2)).forEach (pushCode spec)
        (range.2 - range.1 + 2) statuses =
          some ((List.range' range.1 (range.2 + 1 - range.1)).foldlM (pushCode spec) statuses) := by
  refine ⟨fun v => ?_, fun v h hblank => ?_, ?_, fun token range h => forEach_pushCode h⟩
  · rw [parseStatusSpec_eq_ok_iff]
    refine or_congr_right (exists_congr fun codes => and_congr_right fun hspec =>
      and_congr_right fun _ => ?_)
    simp only [← hspec.mem_iff]
    exact ⟨fun h => ⟨h.nodup, h.sorted, h.mem_iff⟩, fun h => ⟨h.1, h.2.2, h.2.1⟩⟩
  · rcases parseStatusSpec_eq_ok_iff.1 h with ⟨h, -⟩ | ⟨codes, hspec, -, hfirst⟩
    · exact absurd h hblank
    · rintro rfl
      refine hspec.ne_nil (List.eq_nil_iff_forall_not_mem.2 fun c hc => ?_)
      cases (hfirst.mem_iff c).2 hc
  · constructor
    · rintro ⟨e, he⟩
      refine ⟨fun hblank => ?_, ?_⟩
      · rw [parseStatusSpec_eq_ok_iff.2 (.inl ⟨hblank, rfl⟩)] at he
        cases he
      · rintro ⟨codes, hspec, hall⟩
        rw [parseStatusSpec_eq_ok_iff.2
          (.inr ⟨codes, hspec, hall, firstOccurrences_distinct codes⟩)] at he
        cases he
    · rintro ⟨hblank, hno⟩
      cases hparse : parseStatusSpec spec with
      | error e => exact ⟨e, rfl⟩
      | ok v =>
        rcases parseStatusSpec_eq_ok_iff.1 hparse with ⟨h, -⟩ | ⟨codes, hspec, hall, -⟩
        · exact absurd h hblank
        · exact absurd ⟨codes, hspec, hall⟩ hno

example : parseStatusSpec "402 , 400-403,+418".toList = .ok [402, 400, 401, 403, 418] := by rfl

end ErrorPages

end Lonesome
