import Lonesome.Middlewares.Observe

/-!
# Lines of the access log

What `AccessLogMiddleware::logging` of `src/middlewares/access_log/mod.rs` hands to the sink, as
text. A log is read line by line, so a request should leave one line, whatever a client sent. The
format `json` escapes every text it is given; the format `text` takes the value of the `ext`
expression, the error and the upstream as they are. `logging_oneLine_iff` says for each call, and for
the file of a run of calls, when there is one line to a request.
-/

namespace Lonesome

open Lonesome.Lib

/-- The text has one line feed, at its end. -/
def OneLine (text : Str) : Prop :=
  text.count '\n' = 1 ∧ text.getLast? = some '\n'

theorem oneLine_concat_iff {body : Str} : OneLine (body ++ "\n".toList) ↔ '\n' ∉ body := by
  show List.count '\n' (body ++ ['\n']) = 1 ∧ (body ++ ['\n']).getLast? = some '\n' ↔ _
  rw [List.count_append, List.getLast?_append, ← List.count_eq_zero]
  simp

theorem length_le_count_flatten (bodies : List Str) :
    bodies.length ≤ (bodies.map (· ++ "\n".toList)).flatten.count '\n' := by
  induction bodies with
  | nil => simp
  | cons body bodies ih =>
    rw [List.map_cons, List.flatten_cons, List.count_append, List.count_append, List.length_cons]
    have hone : "\n".toList.count '\n' = 1 := by decide
    omega

/-- Texts that end in a line feed make as many lines as there are texts when each is one line. -/
theorem count_flatten_eq_length_iff {bodies : List Str} :
    (bodies.map (· ++ "\n".toList)).flatten.count '\n' = bodies.length ↔
      ∀ body ∈ bodies, '\n' ∉ body := by
  induction bodies with
  | nil => simp
  | cons body bodies ih =>
    rw [List.map_cons, List.flatten_cons, List.count_append, List.count_append, List.length_cons,
      List.forall_mem_cons, ← ih, ← List.count_eq_zero]
    have hge := length_le_count_flatten bodies
    have hone : "\n".toList.count '\n' = 1 := by decide
    omega

/-! ## Calls -/

/-- A call of `logging`: the middleware, the request at its end and the error, if there was one. -/
structure LogCall (X : Externals) where
  middleware : AccessLogMiddleware X
  state : RequestState X
  error : Option ProxyError

namespace LogCall

variable {X : Externals} (c : LogCall X)

/-- The text of the `ext` expression in the scope of the request. -/
def ext : Str :=
  match c.middleware.extProgram with
  | none => []
  | some program =>
    match X.execute (c.state.time + 1) c.state.scope program with
    | .ok v => v.scalarText.getD []
    | .error _ => []

/-- The address of the backend that was selected last. -/
def upstream : Str :=
  ((c.state.ctx.upstreamState.bind (·.lastBackend)).map (·.addr)).getD []

def entry : AccessLogEntry where
  ts := X.timestamp c.state.time
  method := c.state.session.reqHeader.method.toList
  path := X.uriText c.state.session.reqHeader.uri
  status := (c.state.session.responseWritten.map (·.status)).getD 0
  latencyMs := X.now c.state.time - c.state.ctx.accessLogStart.getD (X.now c.state.time)
  upstream := c.upstream
  ext := c.ext
  error := c.error.map X.errorText

/-- The call hands a text to the sink of its file, and nothing else. -/
def Enqueues (line : Str) : Prop :=
  ((c.middleware.logging c.error).exec c.state).1 = .ok () ∧
    ((c.middleware.logging c.error).exec c.state).2.shared.accessLog =
      c.state.shared.accessLog ++ [(c.middleware.file, line)]

theorem exec_evalExt (s : RequestState X) (hscope : s.scope = c.state.scope)
    (htime : s.time = c.state.time + 1) :
    ∃ s', (c.middleware.evalExt).exec s = (.ok c.ext, s') ∧ s'.shared = s.shared := by
  unfold AccessLogMiddleware.evalExt ext
  cases c.middleware.extProgram with
  | none => exact ⟨s, rfl, rfl⟩
  | some program =>
    dsimp only
    rw [exec_bind, execute, exec_executeIn, hscope, htime]
    dsimp only
    cases X.execute (c.state.time + 1) c.state.scope program with
    | error e => exact ⟨_, rfl, rfl⟩
    | ok v => exact ⟨_, rfl, rfl⟩

theorem enqueues_line : c.Enqueues (c.middleware.line c.entry) := by
  obtain ⟨s', hext, hshared⟩ :=
    c.exec_evalExt { c.state with time := c.state.time + 1 } rfl rfl
  unfold Enqueues AccessLogMiddleware.logging
  rw [exec_bind, exec_get]
  dsimp only
  rw [exec_bind, exec_tick]
  dsimp only
  rw [exec_bind, hext]
  refine ⟨rfl, ?_⟩
  show s'.shared.accessLog ++ _ = _
  rw [hshared]
  rfl

end LogCall

/-! ## Texts without a line feed -/

theorem newline_not_mem_nat (n : Nat) : '\n' ∉ (toString n).toList := by
  intro h
  have hdigit : '\n'.isDigit = true :=
    Nat.isDigit_of_mem_toDigits (by decide) (by decide) (Nat.toList_repr ▸ h)
  cases hdigit

theorem newline_not_mem_int (z : Int) : '\n' ∉ (toString z).toList := by
  cases z with
  | ofNat n => exact newline_not_mem_nat n
  | negSucc n =>
    show '\n' ∉ ("-" ++ toString n.succ).toList
    rw [String.toList_append, List.mem_append, not_or]
    exact ⟨by decide, newline_not_mem_nat n.succ⟩

/-- `to_string` of `serde_json`: control characters of strings are escaped, and the members of an
object stand on one line, in some order. -/
structure CompactJson (jsonText : Json → Str) : Prop where
  null : jsonText .null = "null".toList
  nat : ∀ n, jsonText (.nat n) = (toString n).toList
  number : ∀ text, jsonText (.number text) = text
  string : ∀ v, '\n' ∉ jsonText (.string v)
  object : ∀ members, (members.map Prod.fst).Nodup →
    ∃ members' : List (Str × Json), members'.Perm members ∧
      jsonText (.object members) = ['\x7b'] ++ [','].intercalate
        (members'.map fun m => jsonText (.string m.1) ++ [':'] ++ jsonText m.2) ++ ['\x7d']

theorem mem_intercalate {c : Char} {sep : Str} {parts : List Str} (h : c ∈ sep.intercalate parts) :
    c ∈ sep ∨ ∃ part ∈ parts, c ∈ part := by
  induction parts with
  | nil => cases h
  | cons part parts ih =>
    cases parts with
    | nil =>
      rw [List.intercalate_singleton] at h
      exact .inr ⟨part, List.mem_cons_self, h⟩
    | cons next parts =>
      rw [List.intercalate_cons_cons, List.mem_append, List.mem_append] at h
      rcases h with (h | h) | h
      · exact .inr ⟨part, List.mem_cons_self, h⟩
      · exact .inl h
      · refine (ih h).imp_right ?_
        rintro ⟨part', hmem, hc⟩
        exact ⟨part', List.mem_cons_of_mem _ hmem, hc⟩

variable {X : Externals}

/-- Each member of the entry is written without a line feed. -/
theorem CompactJson.members (hjson : CompactJson X.jsonText) (e : AccessLogEntry) :
    ∃ members, e.json = .object members ∧ (members.map Prod.fst).Nodup ∧
      ∀ m ∈ members, '\n' ∉ X.jsonText m.2 := by
  refine ⟨_, rfl, ?_, ?_⟩
  · show ["ts".toList, "method".toList, "path".toList, "status".toList, "latency_ms".toList,
      "upstream".toList, "ext".toList, "error".toList].Nodup
    decide
  · simp only [List.forall_mem_cons, hjson.nat, hjson.number]
    refine ⟨hjson.string _, hjson.string _, hjson.string _, newline_not_mem_nat _,
      newline_not_mem_int _, hjson.string _, hjson.string _, ?_, by simp⟩
    cases e.error with
    | none =>
      show '\n' ∉ X.jsonText .null
      rw [hjson.null]
      decide
    | some error => exact hjson.string _

theorem CompactJson.newline_not_mem (hjson : CompactJson X.jsonText) (e : AccessLogEntry) :
    '\n' ∉ X.jsonText e.json := by
  obtain ⟨members, heq, hkeys, hvalues⟩ := hjson.members e
  obtain ⟨members', hperm, htext⟩ := hjson.object members hkeys
  rw [heq, htext, List.mem_append, List.mem_append, not_or, not_or]
  refine ⟨⟨by decide, fun h => ?_⟩, by decide⟩
  rcases mem_intercalate h with h | ⟨part, hpart, hc⟩
  · revert h
    decide
  · obtain ⟨m, hm, rfl⟩ := List.mem_map.1 hpart
    rw [List.mem_append, List.mem_append] at hc
    rcases hc with (hc | hc) | hc
    · exact hjson.string m.1 hc
    · revert hc
      decide
    · exact hvalues m (hperm.mem_iff.1 hm) hc

/-! ## One line for each call -/

variable (X) in
/-- Timestamps, URIs and JSON are printed without a line feed. -/
structure PrintsOnOneLine : Prop where
  timestamp : ∀ t, '\n' ∉ X.timestamp t
  uriText : ∀ uri, '\n' ∉ X.uriText uri
  jsonText : CompactJson X.jsonText

/-- The line escapes the texts that are not the program's own, or they have no line feed. -/
def LogCall.Clean (c : LogCall X) : Prop :=
  c.middleware.json = true ∨
    '\n' ∉ c.upstream ∧ '\n' ∉ c.ext ∧ ∀ e ∈ c.error, '\n' ∉ (X.errorText e).toList

/-- A line of the format `text` without a line feed of its own: the texts that are printed as they
are decide. -/
theorem AccessLogEntry.text_parts {e : AccessLogEntry} (hts : '\n' ∉ e.ts) (hmethod : '\n' ∉ e.method)
    (hpath : '\n' ∉ e.path) : ∃ body, e.text = body ++ "\n".toList ∧
      ('\n' ∉ body ↔ '\n' ∉ e.upstream ∧ '\n' ∉ e.ext ∧ ∀ error ∈ e.error, '\n' ∉ error.toList) := by
  refine ⟨_, rfl, ?_⟩
  have hext : ('\n' ∈ if e.ext.isEmpty then [] else " ext=".toList ++ e.ext) ↔ '\n' ∈ e.ext := by
    cases e.ext with
    | nil => simp
    | cons d rest => simp
  have herror : ('\n' ∈ (e.error.map fun error => " error=".toList ++ error.toList).getD []) ↔
      ∃ error ∈ e.error, '\n' ∈ error.toList := by
    cases e.error with
    | none => simp
    | some error => simp
  have hlabels : '\n' ∉ " ".toList ∧ '\n' ∉ " status=".toList ∧ '\n' ∉ " latency=".toList ∧
      '\n' ∉ "ms upstream=".toList := by decide
  simp only [List.mem_append, hts, hmethod, hpath, newline_not_mem_nat, newline_not_mem_int,
    hlabels.1, hlabels.2.1, hlabels.2.2.1, hlabels.2.2.2, hext, herror, or_false, false_or, not_or]
  simp only [not_exists, not_and, and_assoc]

namespace LogCall

/-- What stands before the line feed at the end of a line. -/
def body (c : LogCall X) : Str :=
  (c.middleware.line c.entry).dropLast

theorem line_eq (c : LogCall X) : c.middleware.line c.entry = c.body ++ "\n".toList := by
  unfold body AccessLogMiddleware.line
  split
  · exact congrArg (· ++ "\n".toList) (List.dropLast_concat).symm
  · exact congrArg (· ++ "\n".toList) (List.dropLast_concat).symm

theorem newline_not_mem_body_iff (hX : PrintsOnOneLine X) {c : LogCall X}
    (hmethod : '\n' ∉ c.state.session.reqHeader.method.toList) : '\n' ∉ c.body ↔ c.Clean := by
  have hline := c.line_eq
  unfold AccessLogMiddleware.line at hline
  unfold Clean
  split at hline
  · next hjson =>
    rw [← List.append_cancel_right hline]
    simp [hjson, hX.jsonText.newline_not_mem]
  · next hjson =>
    obtain ⟨body, hbody, hiff⟩ := AccessLogEntry.text_parts (e := c.entry) (hX.timestamp _) hmethod
      (hX.uriText _)
    rw [hbody] at hline
    rw [← List.append_cancel_right hline, hiff, or_iff_right hjson]
    refine and_congr .rfl (and_congr .rfl ?_)
    cases hc : c.error with
    | none => simp [entry, hc]
    | some error => simp [entry, hc]

end LogCall

/-- **One line for each request**: the line that a call hands to the sink has one line feed, at its
end, if and only if it is JSON or none of the texts it takes over has one; and the file of a run of
calls has as many lines as there were calls if and only if all of them are so. -/
theorem logging_oneLine_iff (hX : PrintsOnOneLine X) (calls : List (LogCall X))
    (hmethod : ∀ c ∈ calls, '\n' ∉ c.state.session.reqHeader.method.toList) :
    ∃ lines, List.Forall₂ (fun c line => LogCall.Enqueues c line ∧ (OneLine line ↔ c.Clean)) calls lines ∧
      (lines.flatten.count '\n' = calls.length ↔ ∀ c ∈ calls, c.Clean) := by
  refine ⟨(calls.map LogCall.body).map (· ++ "\n".toList), ?_, ?_⟩
  · rw [List.map_map, List.forall₂_map_right_iff, List.forall₂_same]
    intro c hc
    have henqueues := c.enqueues_line
    rw [c.line_eq] at henqueues
    refine ⟨henqueues, ?_⟩
    exact oneLine_concat_iff.trans (LogCall.newline_not_mem_body_iff hX (hmethod c hc))
  · have hcount := @count_flatten_eq_length_iff (calls.map LogCall.body)
    rw [List.length_map] at hcount
    rw [hcount, List.forall_mem_map]
    exact forall₂_congr fun c hc => LogCall.newline_not_mem_body_iff hX (hmethod c hc)

/-! A log with the decoded path in it. -/

/-- A digit of base 16. -/
def hexDigit (c : Char) : Option Nat :=
  if c.isDigit then some (c.toNat - '0'.toNat)
  else if 'A' ≤ c ∧ c ≤ 'F' then some (c.toNat - 'A'.toNat + 10)
  else none

/-- The decoding of ASCII characters. -/
def percentDecodeAscii : Str → Str
  | '%' :: a :: b :: rest =>
    match hexDigit a, hexDigit b with
    | some m, some n => Char.ofNat (16 * m + n) :: percentDecodeAscii rest
    | _, _ => '%' :: percentDecodeAscii (a :: b :: rest)
  | c :: rest => c :: percentDecodeAscii rest
  | [] => []

/-- `serde_json` on strings of printable ASCII and line feeds. -/
def escapeJson (v : Str) : Str :=
  ['"'] ++ v.flatMap (fun c =>
    if c = '\n' then ['\\', 'n'] else if c = '"' ∨ c = '\\' then ['\\', c] else [c]) ++ ['"']

def compactJson : Json → Str
  | .null => "null".toList
  | .bool v => (toString v).toList
  | .nat n => (toString n).toList
  | .number text => text
  | .string v => escapeJson v
  | .array items => ['['] ++ [','].intercalate (items.map compactJson) ++ [']']
  | .object members => ['\x7b'] ++ [','].intercalate
      (members.map fun m => escapeJson m.1 ++ [':'] ++ compactJson m.2) ++ ['\x7d']
decreasing_by
  · next hitem =>
    have hlt := List.sizeOf_lt_of_mem hitem
    simp only [Json.array.sizeOf_spec]
    omega
  · next hm =>
    have hlt := List.sizeOf_lt_of_mem hm
    cases m
    simp only [Prod.mk.sizeOf_spec] at hlt
    simp only [Json.object.sizeOf_spec]
    omega

theorem newline_not_mem_escapeJson (v : Str) : '\n' ∉ escapeJson v := by
  unfold escapeJson
  simp only [List.mem_append, List.mem_flatMap, not_or, not_exists, not_and]
  refine ⟨⟨by decide, fun c _ => ?_⟩, by decide⟩
  by_cases hc : c = '\n'
  · rw [if_pos hc]
    decide
  · rw [if_neg hc]
    split
    · simp [Ne.symm hc]
    · simp [Ne.symm hc]

theorem compactJson_compact : CompactJson compactJson where
  null := by rw [compactJson]
  nat n := by rw [compactJson]
  number text := by rw [compactJson]
  string v := by
    rw [compactJson]
    exact newline_not_mem_escapeJson v
  object members _ := by
    refine ⟨members, .rfl, ?_⟩
    rw [compactJson]
    simp only [compactJson]

/-- Requests with the path as the only function of expressions. -/
def Externals.pathLog : Externals :=
  { Externals.plain with
    D := ⟨percentDecodeAscii, fun _ => []⟩
    execute := fun _ c e =>
      match e with
      | .call none "PathValue" [] => .ok (RequestFn.pathValue.call ⟨percentDecodeAscii, fun _ => []⟩ c)
      | _ => .error "undeclared reference"
    timestamp := fun _ => "2026-01-01T00:00:00+00:00".toList
    jsonText := compactJson }

theorem Externals.pathLog_printsOnOneLine : PrintsOnOneLine Externals.pathLog where
  timestamp t := by
    show '\n' ∉ "2026-01-01T00:00:00+00:00".toList
    decide
  uriText uri := by
    show '\n' ∉ uri.pathText
    intro h
    have hok : (uri.pathText == "*".toList || (uri.pathText.head? == some '/' &&
      uri.pathText.all fun c => 33 ≤ c.toNat && c.toNat < 127 && c != '#')) = true := uri.pathText_ok
    rcases Bool.or_eq_true_iff.1 hok with hstar | hvisible
    · rw [beq_iff_eq.1 hstar] at h
      revert h
      decide
    · have hc := List.all_eq_true.1 (Bool.and_eq_true_iff.1 hvisible).2 '\n' h
      revert hc
      decide
  jsonText := compactJson_compact

/-- `GET` for a path, with the path as the `ext` of the log. -/
def pathLogCall (path : Str) (ok : HttpCrate.byCharacter.pathAndQueryOk path = true) (json : Bool) :
    LogCall Externals.pathLog where
  middleware := { json, file := "access.log".toList, extProgram := some (.call none "PathValue" []) }
  state := {
    ctx := ProxyCtx.new .looseByHeader
    session := { Session.plain with reqHeader := {
      method := "GET"
      uri := { scheme := none, authority := none, pathAndQuery := some ⟨path, ok⟩ }
      headers := [] } }
    shared := .plain .new
    time := 0
    history := [] }
  error := none

theorem logging_oneLine_two_calls :
    let calls := [pathLogCall "/a".toList (by decide) false, pathLogCall "/a%0Ab".toList (by decide) true]
    PrintsOnOneLine Externals.pathLog ∧ (∀ c ∈ calls, c.Clean) ∧
    ∃ lines, List.Forall₂ (fun c line => LogCall.Enqueues c line ∧ (OneLine line ↔ c.Clean)) calls lines ∧
      lines.flatten.count '\n' = 2 := by
  intro calls
  have hclean : ∀ c ∈ calls, c.Clean := by
    refine List.forall_mem_cons.2 ⟨.inr ⟨by decide, by decide, fun e he => nomatch he⟩, ?_⟩
    exact List.forall_mem_singleton.2 (.inl rfl)
  obtain ⟨lines, hlines, hcount⟩ := logging_oneLine_iff Externals.pathLog_printsOnOneLine calls
    (by
      refine List.forall_mem_cons.2 ⟨?_, List.forall_mem_singleton.2 ?_⟩
      all_goals
        show '\n' ∉ "GET".toList
        decide)
  exact ⟨Externals.pathLog_printsOnOneLine, hclean, lines, hlines, hcount.2 hclean⟩

/-- `GET /a%0Ab` makes two lines in the format `text`. -/
theorem pathLogCall_two_lines :
    PrintsOnOneLine Externals.pathLog ∧
    ∃ line, (pathLogCall "/a%0Ab".toList (by decide) false).Enqueues line ∧
      line.count '\n' = 2 ∧ ¬ OneLine line := by
  have hline := (pathLogCall "/a%0Ab".toList (by decide) false).enqueues_line
  exact ⟨Externals.pathLog_printsOnOneLine, _, hline, by decide, fun h => absurd h.1 (by decide)⟩

end Lonesome
