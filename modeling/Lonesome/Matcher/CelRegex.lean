import Lonesome.Lib.Memo
import Lonesome.Text

/-!
# The cache of regular expressions

`src/matcher/cel_regex.rs`: the patterns that the functions of rules are called with are compiled once
for the whole process. The cache is a `DashMap`; a lookup and an `entry(..)` with what is done to it are
one action each, and nothing is locked while a pattern is compiled.

The cache is a `Memo`. So whichever calls run at the same time, a call answers as it would without the
cache, and the calls with one pattern share one regex: `regex_cache_agrees`.
-/

namespace Lonesome.CelRegex

open Lonesome.Interleaving

/-- The `regex` crate. -/
structure RegexCrate where
  Regex : Type
  Error : Type
  /-- `Regex::new` -/
  new : Str → Except Error Regex
  isMatch : Regex → Str → Bool
  /-- `Regex::replace`, of the first match. -/
  replace : Regex → Str → Str → Str

variable (R : RegexCrate)

/-- The calls of the module. -/
inductive Call where
  | compileCached (pattern : Str)
  | isMatch (pattern input : Str)
  | replace (pattern input replacement : Str)
  deriving DecidableEq

def Call.pattern : Call → Str
  | compileCached pattern => pattern
  | isMatch pattern _ => pattern
  | replace pattern _ _ => pattern

/-- `global_cache` with the calls of `compile_cached`. -/
def globalCache : Memo Call Str R.Regex R.Error where
  key := Call.pattern
  compute := R.new

variable {R}

/-- The ends of `is_match` and `replace`, after `compile_cached`. -/
def isMatchWith (compiled : Except R.Error R.Regex) (input : Str) : Bool :=
  match compiled with
  | .ok regex => R.isMatch regex input
  | .error _ => false

def replaceWith (compiled : Except R.Error R.Regex) (input replacement : Str) : Option Str :=
  match compiled with
  | .ok regex =>
    if R.isMatch regex input then some (R.replace regex input replacement) else none
  | .error _ => none

/-- What a call returns to its caller: a regex, whether it matches, or the text with the first match
replaced. -/
inductive Answer (R : RegexCrate) where
  | compiled (regex : Except R.Error R.Regex)
  | matched (result : Bool)
  | replaced (result : Option Str)

def Call.answer (compiled : Except R.Error R.Regex) : Call → Answer R
  | compileCached _ => .compiled compiled
  | isMatch _ input => .matched (isMatchWith compiled input)
  | replace _ input replacement => .replaced (replaceWith compiled input replacement)

/-- The answers of the calls that have returned, with the numbers of the regexes they used. -/
def answers (s : Memo.State Call Str R.Regex R.Error) : List (Call × Answer R × Option Nat) :=
  s.returned.map fun r => (r.1, r.1.answer (r.2.map (·.value)), (r.2.toOption.map (·.number)))

theorem mem_answers_iff {s : Memo.State Call Str R.Regex R.Error} {call : Call} {answer : Answer R}
    {used : Option Nat} :
    (call, answer, used) ∈ answers s ↔ ∃ r, (call, r) ∈ s.returned ∧
      answer = call.answer (r.map (·.value)) ∧ used = r.toOption.map (·.number) := by
  rw [answers, List.mem_map]
  constructor
  · intro h
    obtain ⟨⟨call', r⟩, hr, heq⟩ := h
    cases heq
    exact ⟨r, hr, rfl, rfl⟩
  · intro h
    obtain ⟨r, hr, rfl, rfl⟩ := h
    exact ⟨(call, r), hr, rfl⟩

/-- What was returned, seen as the value alone, is what `Regex::new` gives. -/
theorem map_value_of_answers {s : Memo.State Call Str R.Regex R.Error} {call : Call}
    {r : Except R.Error (Memo.Instance R.Regex)} (h : s.Answers (globalCache R) call r) :
    r.map (·.value) = R.new call.pattern := by
  cases r with
  | error e => exact h.symm
  | ok a => exact h.1.symm

/-- **The cache is not seen.** In every interleaving of calls, over any patterns, each call answers as
if it compiled its pattern itself. The calls that got a regex for one pattern got one and the same, and
once it has been handed out it is the one of all later calls. -/
theorem regex_cache_agrees {p p' : Pool (Memo.State Call Str R.Regex R.Error) (Memo.Task Call R.Regex)}
    (h : (globalCache R).object.Reachable p) (hlater : (globalCache R).object.Leads p p') :
    (∀ call answer used, (call, answer, used) ∈ answers p.shared →
      answer = call.answer (R.new call.pattern) ∧
      (used.isSome ↔ ∃ regex, R.new call.pattern = .ok regex)) ∧
    ∀ call answer n call' answer' n', call.pattern = call'.pattern →
      (call, answer, some n) ∈ answers p.shared → (call', answer', some n') ∈ answers p'.shared →
      n = n' := by
  have hsound := Memo.sound h
  constructor
  · intro call answer used hmem
    obtain ⟨r, hr, rfl, rfl⟩ := mem_answers_iff.1 hmem
    have hanswers := hsound.returned call r hr
    refine ⟨by rw [map_value_of_answers hanswers], ?_⟩
    cases r with
    | error e =>
      have herror : R.new call.pattern = .error e := hanswers
      simp [Except.toOption, herror]
    | ok a =>
      have hok : R.new call.pattern = .ok a.value := hanswers.1
      simp [Except.toOption, hok]
  · intro call answer n call' answer' n' hpattern hmem hmem'
    obtain ⟨r, hr, -, hn⟩ := mem_answers_iff.1 hmem
    obtain ⟨r', hr', -, hn'⟩ := mem_answers_iff.1 hmem'
    cases r with
    | error e => cases hn
    | ok a =>
      cases r' with
      | error e => cases hn'
      | ok a' =>
        -- the regex handed out first is still in the table, where the other one was taken from
        have hfirst := Memo.stays hlater (hsound.returned call _ hr).2
        have hsecond := ((Memo.sound (h.leads hlater)).returned call' _ hr').2
        have hkey : (globalCache R).key call = (globalCache R).key call' := hpattern
        rw [hkey] at hfirst
        have hsame := Option.some.inj (hfirst.symm.trans hsecond)
        cases hn
        cases hn'
        rw [hsame]

/-! Two calls that miss the cache at the same time: the second one to enter takes what it finds. -/

/-- The patterns without special characters, each of which stands for itself; an opening bracket is one
that is not closed. -/
def RegexCrate.literals : RegexCrate where
  Regex := Str
  Error := String
  new pattern := if pattern.contains '(' then .error "unclosed group" else .ok pattern
  isMatch regex input := input.tails.any fun rest => regex.isPrefixOf rest
  replace regex input replacement :=
    let before := (input.tails.takeWhile fun rest => !regex.isPrefixOf rest).length
    input.take before ++ replacement ++ input.drop (before + regex.length)

def twoMisses : List (Move (Memo.Task Call Str) Unit Empty) :=
  [.begin 0 (.probe (.isMatch "api".toList "/api/v1".toList)),
    .begin 1 (.probe (.replace "api".toList "/api/v1".toList "new".toList)),
    .begin 2 (.probe (.isMatch "(unclosed".toList "x".toList)),
    .act 0 (), .act 1 (), .act 1 (), .act 0 (), .act 2 (), .act 0 (), .act 2 (), .act 1 ()]

theorem regex_cache_twoMisses :
    ∃ p, (globalCache .literals).object.Reachable p ∧
      (.isMatch "api".toList "/api/v1".toList, .matched true, some 1) ∈ answers p.shared ∧
      (.replace "api".toList "/api/v1".toList "new".toList, .replaced (some "/new/v1".toList), some 1) ∈
        answers p.shared ∧
      (.isMatch "(unclosed".toList "x".toList, .matched false, none) ∈ answers p.shared := by
  obtain ⟨p, hrun, hanswers⟩ : ∃ p,
      (globalCache RegexCrate.literals).object.run (globalCache .literals).object.start twoMisses =
        some p ∧
      (answers p.shared).map (fun a => (a.1, a.2.2)) =
        [(.isMatch "api".toList "/api/v1".toList, some 1), (.isMatch "(unclosed".toList "x".toList, none),
          (.replace "api".toList "/api/v1".toList "new".toList, some 1)] := ⟨_, rfl, rfl⟩
  have hreach := Object.reachable_of_run hrun
  have hagrees : ∀ call used, (call, used) ∈ (answers p.shared).map (fun a => (a.1, a.2.2)) →
      (call, call.answer (RegexCrate.literals.new call.pattern), used) ∈ answers p.shared := by
    intro call used hmem
    obtain ⟨⟨call', answer, used'⟩, ha, heq⟩ := List.mem_map.1 hmem
    cases heq
    rw [← ((regex_cache_agrees hreach .refl).1 _ answer _ ha).1]
    exact ha
  rw [hanswers] at hagrees
  exact ⟨p, hreach, hagrees _ _ (by simp), hagrees _ _ (by simp), hagrees _ _ (by simp)⟩

end Lonesome.CelRegex
