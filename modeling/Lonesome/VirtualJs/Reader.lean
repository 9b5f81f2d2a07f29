import Lonesome.VirtualJs.Socket

/-!
# What a poll tells the reader

A poll answers from the total fill of its buffer. For a buffer that starts empty that is the answer
of the socket: bytes, the end of the stream, or `Pending`. A buffer that was filled in part by an
earlier poll is not empty whatever this poll adds, so an idle socket answers `Ready` without a byte,
which is how the end of the stream is reported (`no_false_end_iff`).

A poll that answers `Pending` has registered its waker before it looked, and a push wakes after its
update. So as long as the waker is not woken, a push that changed anything is still on its way to
the wake (`Wakeful`), and no wake is lost (`no_lost_wake`).
-/

namespace Lonesome.VirtualJs

open Lonesome.Interleaving

/-! ## One poll -/

theorem readLoop_capacity (pending : List (Bytes × Nat)) (buf : ReadBuf) :
    (readLoop pending buf).2.capacity = buf.capacity := by
  fun_induction readLoop pending buf with
  | case1 | case2 | case4 => rfl
  | case3 _ _ _ _ _ _ _ ih => exact ih
  | case5 _ _ _ _ _ _ _ _ _ _ ih => exact ih

/-- The loop ends with the queue or with the room in the buffer. -/
theorem readLoop_drains (pending : List (Bytes × Nat)) (buf : ReadBuf) :
    queued (readLoop pending buf).1 = [] ∨ (readLoop pending buf).2.remaining = 0 := by
  fun_induction readLoop pending buf with
  | case1 buf => exact .inl rfl
  | case2 chunk offset pending buf hfull => exact .inr hfull
  | case3 chunk offset pending buf hroom remain hempty ih => exact ih
  | case4 chunk offset pending buf hroom remain hsome toCopy buf' hpart =>
    -- a chunk is split only where the room ends
    have hcopy : toCopy = buf.remaining := by omega
    have hlength : (slice chunk offset (offset + toCopy)).length = toCopy := by
      rw [slice, List.length_drop, List.length_take]
      omega
    right
    show buf.capacity - (buf.filled ++ slice chunk offset (offset + toCopy)).length = 0
    rw [List.length_append, hlength, hcopy]
    unfold ReadBuf.remaining
    omega
  | case5 chunk offset pending buf hroom remain hsome toCopy buf' hwhole ih => exact ih

/-- A loop with room for a byte adds none if and only if there is none. -/
theorem readLoop_filled_eq_iff (pending : List (Bytes × Nat)) {buf : ReadBuf}
    (hroom : 0 < buf.remaining) :
    (readLoop pending buf).2.filled = buf.filled ↔ queued pending = [] := by
  obtain ⟨given, hfilled, hmoves⟩ := readLoop_moves pending buf
  rw [Fifo.Moves, List.append_nil] at hmoves
  constructor
  · intro hsame
    have hgiven : given = [] := by
      rw [hfilled] at hsame
      exact List.append_right_eq_self.1 hsame
    rcases readLoop_drains pending buf with hdrained | hfull
    · rw [hmoves, hgiven, hdrained]
      rfl
    · have hcapacity := readLoop_capacity pending buf
      unfold ReadBuf.remaining at hroom hfull
      rw [hsame] at hfull
      omega
  · intro hnone
    rw [hnone] at hmoves
    rw [hfilled, (List.append_eq_nil_iff.1 hmoves.symm).1, List.append_nil]

/-- The poll answers `Ready(Ok)` and adds no byte. -/
def ReportsEnd (s : VirtualJsSocketState) (buf : ReadBuf) : Prop :=
  (s.examine buf).2.2 = .ready (.ok ()) ∧ (s.examine buf).2.1.filled = buf.filled

/-- With an error or a byte there is no report of an end; else the answer is that of the flag, unless
the buffer is already filled in part. -/
theorem reportsEnd_iff (s : VirtualJsSocketState) {buf : ReadBuf} (hroom : 0 < buf.remaining) :
    ReportsEnd s buf ↔
      s.read.err = none ∧ queued s.read.pending = [] ∧ (s.read.eof = true ∨ buf.filled ≠ []) := by
  have hfilled := readLoop_filled_eq_iff s.read.pending hroom
  unfold ReportsEnd VirtualJsSocketState.examine
  cases herr : s.read.err with
  | some message => simp
  | none =>
    dsimp only
    by_cases hempty : (readLoop s.read.pending buf).2.filled = []
    · -- the loop only adds to the buffer, so it was empty before
      have hbuf : buf.filled = [] := by
        obtain ⟨given, hgiven, -⟩ := readLoop_moves s.read.pending buf
        rw [hempty] at hgiven
        exact (List.append_eq_nil_iff.1 hgiven.symm).1
      have hqueued := hfilled.1 (hempty.trans hbuf.symm)
      cases heof : s.read.eof <;> simp [hempty, hbuf, hqueued]
    · rw [if_neg (by simpa using hempty), hfilled]
      simp only [true_and]
      refine ⟨fun hqueued => ⟨hqueued, .inr ?_⟩, And.left⟩
      rwa [← hfilled.2 hqueued]

/-! ## The end of the stream -/

/-- A call of `push_eof` takes effect. -/
def PushesEof (p : Pool Socket Call) : Move Call Unit Empty → Prop
  | .act i _ => p.tasks i = some (.push .eof .update)
  | _ => False

theorem examine_eof (s : VirtualJsSocketState) (buf : ReadBuf) :
    (s.examine buf).1.read.eof = s.read.eof := by
  unfold VirtualJsSocketState.examine
  split
  · rfl
  · dsimp only
    split
    · split <;> rfl
    · rfl

theorem update_eof {read read' : ReadState} {call : Push} (h : call.update read = .ok read') :
    read'.eof = true ↔ read.eof = true ∨ call = .eof := by
  cases call with
  | data payload =>
    simp only [Push.update] at h
    split at h
    · cases h
    · split at h
      · cases h
      · cases h
        simp
  | eof => cases h; simp
  | error message => cases h; simp
  | abort message =>
    simp only [Push.update] at h
    split at h <;> cases h <;> simp

/-- The flag is set by `push_eof`, and never taken back. -/
theorem act_eof (i : Nat) (s : Socket) (call : Call) :
    (act i s call).1.state.read.eof = true ↔
      s.state.read.eof = true ∨ call = .push .eof .update := by
  cases call with
  | pollShutdown => simp [act]
  | pollRead buf registered =>
    cases registered with
    | false => simp [act]
    | true => simp [act, Socket.log, examine_eof]
  | push call pc =>
    cases pc with
    | check =>
      simp only [act, pushAct]
      split <;> simp [Socket.log]
    | update =>
      simp only [act, pushAct]
      split
      · next message h =>
        have hdata : call ≠ .eof := by
          rintro rfl
          cases h
        simp [Socket.log, hdata]
      · next read h => simp [Socket.log, update_eof h]
    | wake => simp [act, pushAct, Socket.log]

theorem move_eof {p p' : Pool Socket Call} {m : Move Call Unit Empty}
    (h : socket.move p m = some p') :
    p'.shared.state.read.eof = true ↔ p.shared.state.read.eof = true ∨ PushesEof p m := by
  obtain ⟨i, call, rfl, -, -, rfl⟩ | ⟨i, choice, call, s', call', rfl, hcall, hact, rfl⟩ | ⟨e, -⟩ :=
    Object.move_cases h
  · simp [PushesEof]
  · have hact : act i p.shared call = (s', call') := Option.some.inj hact
    have heof := act_eof i p.shared call
    rw [hact] at heof
    rw [Pool.set_shared, heof, PushesEof, hcall, Option.some.injEq]
  · exact e.elim

theorem eof_of_run {p p' : Pool Socket Call} (schedule : List (Move Call Unit Empty))
    (h : socket.run p schedule = some p') :
    p'.shared.state.read.eof = true ↔
      p.shared.state.read.eof = true ∨ socket.Occurs PushesEof p schedule := by
  induction schedule generalizing p with
  | nil =>
    cases h
    simp [Object.Occurs]
  | cons m schedule ih =>
    obtain ⟨q, hq, hrest⟩ := Object.run_cons.1 h
    rw [ih hrest, move_eof hq, Object.occurs_cons hq, or_assoc]

/-- A poll returns what it has found, with the bytes it has added. -/
theorem move_polled {p p' : Pool Socket Call} {i : Nat} {buf : ReadBuf}
    (hpoll : p.tasks i = some (.pollRead buf true)) (hmove : socket.move p (.act i ()) = some p') :
    p'.shared.history = p.shared.history ++
      [.polled i ((p.shared.state.examine buf).2.1.filled.drop buf.filled.length)
        (p.shared.state.examine buf).2.2] := by
  simp only [Object.move, hpoll, socket, act, Option.map_some, Option.some.injEq] at hmove
  rw [← hmove]
  rfl

theorem filled_drop_eq_nil_iff (s : VirtualJsSocketState) (buf : ReadBuf) :
    (s.examine buf).2.1.filled.drop buf.filled.length = [] ↔
      (s.examine buf).2.1.filled = buf.filled := by
  obtain ⟨given, hgiven⟩ : ∃ given, (s.examine buf).2.1.filled = buf.filled ++ given := by
    obtain ⟨given, hgiven, -⟩ := readLoop_moves s.read.pending buf
    unfold VirtualJsSocketState.examine
    split
    · exact ⟨[], (List.append_nil _).symm⟩
    · dsimp only
      split
      · split <;> exact ⟨given, hgiven⟩
      · exact ⟨given, hgiven⟩
  rw [hgiven, List.drop_left, List.append_right_eq_self]

/-- **No false end of stream.** A poll of any run, on a buffer with room, that returns `Ready(Ok)`
without a byte does so after a `push_eof`, with every accepted byte delivered, if and only if it
does not find a buffer that is filled in part on a socket that has no byte, no end and no error. -/
theorem no_false_end_iff {schedule : List (Move Call Unit Empty)} {p p' : Pool Socket Call} {i : Nat}
    {buf : ReadBuf} (hp : socket.run socket.start schedule = some p)
    (hpoll : p.tasks i = some (.pollRead buf true)) (hroom : 0 < buf.remaining)
    (hmove : socket.move p (.act i ()) = some p') :
    (p'.shared.history = p.shared.history ++ [.polled i [] (.ready (.ok ()))] →
      socket.Occurs PushesEof socket.start schedule ∧
        delivered p'.shared.history = accepted p'.shared.history) ↔
    (buf.filled = [] ∨ queued p.shared.state.read.pending ≠ [] ∨
      p.shared.state.read.eof = true ∨ p.shared.state.read.err ≠ none) := by
  have heof := eof_of_run schedule hp
  have hbytes := (socket_delivers_in_order (Object.reachable_of_run hp)).1
  have hreports : p'.shared.history = p.shared.history ++ [.polled i [] (.ready (.ok ()))] ↔
      ReportsEnd p.shared.state buf := by
    rw [move_polled hpoll hmove, List.append_cancel_left_eq, List.cons.injEq, Event.polled.injEq,
      ReportsEnd, ← filled_drop_eq_nil_iff]
    tauto
  constructor
  · intro h
    by_contra hno
    simp only [not_or, not_not] at hno
    obtain ⟨hfilled, hqueued, hopen, herr⟩ := hno
    have hend := (reportsEnd_iff p.shared.state hroom).2 ⟨herr, hqueued, .inr hfilled⟩
    exact hopen (heof.2 (.inr (h (hreports.2 hend)).1))
  · intro h hhistory
    obtain ⟨herr, hqueued, hend⟩ := (reportsEnd_iff _ hroom).1 (hreports.1 hhistory)
    have hset : p.shared.state.read.eof = true := by
      rcases h with hfilled | hbyte | hset | hfailed
      · exact hend.resolve_right fun hne => hne hfilled
      · exact absurd hqueued hbyte
      · exact hset
      · exact absurd herr hfailed
    refine ⟨(heof.1 hset).resolve_left (by decide), ?_⟩
    rw [hhistory, delivered_append, accepted_append, hbytes, hqueued]
    simp [delivered, accepted, acceptedCalls]

/-- A buffer with one byte in it and room for another. -/
def halfFilled : ReadBuf := ⟨[7], 2, by decide⟩

/-- A poll on the half filled buffer, up to where it looks at the socket. -/
def pollHalfFilled : List (Move Call Unit Empty) :=
  [.begin 0 (.pollRead halfFilled false), .act 0 ()]

def eofThenPoll : List (Move Call Unit Empty) :=
  [.begin 1 (.push .eof .check), .act 1 (), .act 1 (), .act 1 ()] ++ pollHalfFilled

theorem no_false_end_eofThenPoll :
    ∃ p p', socket.run socket.start eofThenPoll = some p ∧ socket.move p (.act 0 ()) = some p' ∧
      p'.shared.history = p.shared.history ++ [.polled 0 [] (.ready (.ok ()))] ∧
      socket.Occurs PushesEof socket.start eofThenPoll ∧
      delivered p'.shared.history = accepted p'.shared.history := by
  obtain ⟨p, hp, hpoll, heof⟩ : ∃ p, socket.run socket.start eofThenPoll = some p ∧
      p.tasks 0 = some (.pollRead halfFilled true) ∧ p.shared.state.read.eof = true :=
    ⟨_, rfl, rfl, rfl⟩
  obtain ⟨p', hp', hhistory⟩ : ∃ p', socket.move p (.act 0 ()) = some p' ∧
      p'.shared.history = p.shared.history ++ [.polled 0 [] (.ready (.ok ()))] := by
    cases hp
    exact ⟨_, rfl, rfl⟩
  have hend := (no_false_end_iff hp hpoll (by decide) hp').2 (.inr (.inr (.inl heof)))
  exact ⟨p, p', hp, hp', hhistory, hend hhistory⟩

/-- The socket has just been opened. -/
theorem halfFilled_reports_end :
    ∃ p p', socket.run socket.start pollHalfFilled = some p ∧
      p.tasks 0 = some (.pollRead halfFilled true) ∧ 0 < halfFilled.remaining ∧
      socket.move p (.act 0 ()) = some p' ∧
      p'.shared.history = p.shared.history ++ [.polled 0 [] (.ready (.ok ()))] ∧
      ¬ socket.Occurs PushesEof socket.start pollHalfFilled := by
  obtain ⟨p, hp, hpoll, heof⟩ : ∃ p, socket.run socket.start pollHalfFilled = some p ∧
      p.tasks 0 = some (.pollRead halfFilled true) ∧ p.shared.state.read.eof = false :=
    ⟨_, rfl, rfl, rfl⟩
  obtain ⟨p', hp', hhistory⟩ : ∃ p', socket.move p (.act 0 ()) = some p' ∧
      p'.shared.history = p.shared.history ++ [.polled 0 [] (.ready (.ok ()))] := by
    cases hp
    exact ⟨_, rfl, rfl⟩
  refine ⟨p, p', hp, hpoll, by decide, hp', hhistory, fun hoccurs => ?_⟩
  rw [(eof_of_run pollHalfFilled hp).2 (.inr hoccurs)] at heof
  cases heof

/-! ## Wakes -/

/-- What the last poll that returned has answered. -/
def lastPoll (history : List Event) : Option Poll :=
  (history.filterMap fun
    | .polled _ _ result => some result
    | _ => none).getLast?

/-- There is nothing to tell the reader. -/
structure ReadState.Idle (read : ReadState) : Prop where
  queued : queued read.pending = []
  eof : read.eof = false
  err : read.err = none

/-- A push between its update and its wake. -/
def Call.owesWake : Call → Prop
  | .push _ .wake => True
  | _ => False

/-- A poll that has registered its waker, and has not looked yet. -/
def Call.isRegistered : Call → Prop
  | .pollRead _ true => True
  | _ => False

/-- Polls begin with an empty buffer that has room. -/
def EmptyBuffers (_ : Pool Socket Call) : Move Call Unit Empty → Prop
  | .begin _ (.pollRead buf _) => buf.filled = [] ∧ 0 < buf.remaining
  | _ => True

def Call.hasRoom : Call → Prop
  | .pollRead buf _ => buf.filled = [] ∧ 0 < buf.remaining
  | _ => True

/-- The waker of the last poll is stored until it is woken. While it is not, and that poll has
answered `Pending`, there is nothing to tell, or a push is about to wake. -/
structure Wakeful (p : Pool Socket Call) : Prop where
  buffers : p.All Call.hasRoom
  stored : lastPoll p.shared.history ≠ none ∨ p.Any Call.isRegistered →
    p.shared.state.readWaker.stored = true ∨ p.shared.state.readWaker.woken = true
  waiting : lastPoll p.shared.history = some .pending → ¬ p.Any Call.isRegistered →
    p.shared.state.readWaker.woken = false → p.Any Call.owesWake ∨ p.shared.state.read.Idle

theorem lastPoll_append_of_not_polled (h : List Event) {e : Event}
    (he : ∀ slot bytes result, e ≠ .polled slot bytes result) : lastPoll (h ++ [e]) = lastPoll h := by
  unfold lastPoll
  cases e with
  | polled slot bytes result => exact absurd rfl (he slot bytes result)
  | _ => simp

theorem lastPoll_append_polled (h : List Event) (slot : Nat) (bytes : Bytes) (result : Poll) :
    lastPoll (h ++ [.polled slot bytes result]) = some result := by
  simp [lastPoll]

/-- On an empty buffer with room, `Pending` means that there is nothing to tell. -/
theorem idle_of_examine {s : VirtualJsSocketState} {buf : ReadBuf} (hempty : buf.filled = [])
    (hroom : 0 < buf.remaining) (h : (s.examine buf).2.2 = .pending) :
    (s.examine buf).1.read.Idle := by
  unfold VirtualJsSocketState.examine at h ⊢
  cases herr : s.read.err with
  | some message => simp [herr] at h
  | none =>
    simp only [herr] at h ⊢
    split at h
    · next hfilled =>
      rw [if_pos hfilled]
      split at h
      · cases h
      · next heof =>
        rw [if_neg heof]
        refine ⟨?_, Bool.eq_false_iff.2 heof, rfl⟩
        have hsame : (readLoop s.read.pending buf).2.filled = buf.filled :=
          (List.isEmpty_iff.1 hfilled).trans hempty.symm
        rcases readLoop_drains s.read.pending buf with hdrained | hfull
        · exact hdrained
        · have hcapacity := readLoop_capacity s.read.pending buf
          unfold ReadBuf.remaining at hroom hfull
          rw [hsame] at hfull
          omega
    · cases h

namespace Wakeful

variable {p : Pool Socket Call} {i : Nat}

theorem start : Wakeful socket.start where
  buffers := by
    intro i t ht
    cases ht
  stored := by
    rintro (h | ⟨i, t, ht, -⟩)
    · exact absurd rfl h
    · cases ht
  waiting := by
    intro h
    cases h

/-- A move that neither the waker nor the read state nor the polls take part in. -/
theorem quietly (hp : Wakeful p) {s' : Socket} {call' : Option Call}
    (hold : ∀ call, p.tasks i = some call → ¬ call.owesWake ∧ ¬ call.isRegistered)
    (hnew : ∀ call, call' = some call → call.hasRoom ∧ ¬ call.isRegistered)
    (hread : s'.state.read = p.shared.state.read)
    (hwaker : s'.state.readWaker = p.shared.state.readWaker)
    (hlast : lastPoll s'.history = lastPoll p.shared.history) : Wakeful (p.set i s' call') := by
  have hregistered : (p.set i s' call').Any Call.isRegistered ↔ p.Any Call.isRegistered := by
    constructor
    · intro h
      exact h.of_set fun call hcall hreg => absurd hreg (hnew call hcall).2
    · intro h
      exact h.set fun call hcall hreg => absurd hreg (hold call hcall).2
  refine ⟨?_, ?_, ?_⟩
  · exact hp.buffers.set (fun _ _ _ _ h => h) fun call hcall => (hnew call hcall).1
  · rw [Pool.set_shared, hlast, hregistered, hwaker]
    exact hp.stored
  · rw [Pool.set_shared, hlast, hregistered, hwaker, hread]
    intro hlast' hno hwoken
    refine (hp.waiting hlast' hno hwoken).imp_left fun howes => ?_
    exact howes.set fun call hcall h => absurd h (hold call hcall).1

/-- After its update a push owes a wake. -/
theorem updates (hp : Wakeful p) (call : Push) {s' : Socket}
    (hwaker : s'.state.readWaker = p.shared.state.readWaker)
    (hlast : lastPoll s'.history = lastPoll p.shared.history) :
    Wakeful (p.set i s' (some (.push call .wake))) := by
  refine ⟨?_, ?_, ?_⟩
  · refine hp.buffers.set (fun _ _ _ _ h => h) ?_
    rintro _ ⟨⟩
    trivial
  · rw [Pool.set_shared, hlast, hwaker]
    intro h
    refine hp.stored (h.imp_right fun hreg => hreg.of_set ?_)
    rintro _ ⟨⟩ hreg
    exact hreg.elim
  · intro _ _ _
    exact .inl (Pool.any_set_self trivial)

/-- A wake finds the waker stored, or woken already. -/
theorem wakes (hp : Wakeful p) {s' : Socket}
    (hwaker : s'.state.readWaker = p.shared.state.readWaker.wake)
    (hlast : lastPoll s'.history = lastPoll p.shared.history) : Wakeful (p.set i s' none) := by
  have hregistered : (p.set i s' none).Any Call.isRegistered → p.Any Call.isRegistered := by
    intro h
    refine h.of_set ?_
    rintro _ ⟨⟩
  have hwoken : lastPoll p.shared.history ≠ none ∨ p.Any Call.isRegistered →
      s'.state.readWaker.woken = true := by
    intro h
    rw [hwaker, AtomicWaker.wake]
    split
    · rfl
    · next hnot => exact (hp.stored h).resolve_left hnot
  refine ⟨?_, ?_, ?_⟩
  · refine hp.buffers.set (fun _ _ _ _ h => h) ?_
    rintro _ ⟨⟩
  · rw [Pool.set_shared, hlast]
    intro h
    exact .inr (hwoken (h.imp_right hregistered))
  · rw [Pool.set_shared, hlast]
    intro hlast' _ hnot
    rw [hwoken (.inl (by rw [hlast']; exact Option.some_ne_none _))] at hnot
    cases hnot

theorem registers (hp : Wakeful p) {buf : ReadBuf} {s' : Socket}
    (hcall : p.tasks i = some (.pollRead buf false))
    (hwaker : s'.state.readWaker = p.shared.state.readWaker.register) :
    Wakeful (p.set i s' (some (.pollRead buf true))) := by
  refine ⟨?_, ?_, ?_⟩
  · refine hp.buffers.set (fun _ _ _ _ h => h) ?_
    rintro _ ⟨⟩
    exact (hp.buffers i _ hcall : Call.hasRoom (.pollRead buf false))
  · intro _
    rw [Pool.set_shared, hwaker]
    exact .inl rfl
  · intro _ hno _
    exact absurd (Pool.any_set_self trivial) hno

/-- A poll looks after it has registered, so what it does not see is still to be told. -/
theorem examines (hp : Wakeful p) {buf : ReadBuf} {bytes : Bytes}
    (hcall : p.tasks i = some (.pollRead buf true)) :
    Wakeful (p.set i ({ p.shared with state := (p.shared.state.examine buf).1 }.log
      [.polled i bytes (p.shared.state.examine buf).2.2]) none) := by
  obtain ⟨hempty, hroom⟩ := hp.buffers i _ hcall
  have hwaker : (p.shared.state.examine buf).1.readWaker = p.shared.state.readWaker := by
    unfold VirtualJsSocketState.examine
    split
    · rfl
    · dsimp only
      split
      · split <;> rfl
      · rfl
  refine ⟨?_, ?_, ?_⟩
  · refine hp.buffers.set (fun _ _ _ _ h => h) ?_
    rintro _ ⟨⟩
  · intro _
    show (p.shared.state.examine buf).1.readWaker.stored = true ∨
      (p.shared.state.examine buf).1.readWaker.woken = true
    rw [hwaker]
    exact hp.stored (.inr ⟨i, _, hcall, trivial⟩)
  · intro hlast _ _
    rw [Pool.set_shared, Socket.log, lastPoll_append_polled, Option.some.injEq] at hlast
    exact .inr (idle_of_examine hempty hroom hlast)

/-- **Every action keeps it.** -/
theorem act (hp : Wakeful p) {call : Call} (hcall : p.tasks i = some call) :
    Wakeful (p.set i (act i p.shared call).1 (act i p.shared call).2) := by
  have hplain (hno : ¬ call.owesWake ∧ ¬ call.isRegistered) :
      ∀ c, p.tasks i = some c → ¬ c.owesWake ∧ ¬ c.isRegistered := by
    intro c hc
    rw [hcall, Option.some.injEq] at hc
    rwa [← hc]
  cases call with
  | pollShutdown =>
    refine hp.quietly (hplain ⟨id, id⟩) ?_ rfl rfl rfl
    rintro _ ⟨⟩
  | pollRead buf registered =>
    cases registered with
    | false => exact hp.registers hcall rfl
    | true => exact hp.examines hcall
  | push call pc =>
    cases pc with
    | check =>
      simp only [VirtualJs.act, pushAct]
      split
      · refine hp.quietly (hplain ⟨id, id⟩) ?_ rfl rfl
          (lastPoll_append_of_not_polled _ (by intros; exact Event.noConfusion))
        rintro _ ⟨⟩
      · refine hp.quietly (hplain ⟨id, id⟩) ?_ rfl rfl rfl
        rintro _ ⟨⟩
        exact ⟨trivial, id⟩
    | update =>
      simp only [VirtualJs.act, pushAct]
      split
      · refine hp.quietly (hplain ⟨id, id⟩) ?_ rfl rfl
          (lastPoll_append_of_not_polled _ (by intros; exact Event.noConfusion))
        rintro _ ⟨⟩
      · refine hp.updates call rfl ?_
        cases call <;> simp [Socket.log, Push.accepts, lastPoll]
    | wake =>
      exact hp.wakes rfl
        (lastPoll_append_of_not_polled _ (by intros; exact Event.noConfusion))

theorem begin (hp : Wakeful p) {call : Call} (hfree : p.tasks i = none)
    (hfirst : call.isFirst = true) (hroom : call.hasRoom) :
    Wakeful (p.set i p.shared (some call)) := by
  refine hp.quietly ?_ ?_ rfl rfl rfl
  · intro c hc
    rw [hfree] at hc
    cases hc
  · rintro _ ⟨⟩
    refine ⟨hroom, ?_⟩
    cases call with
    | pollRead buf registered =>
      cases registered with
      | false => exact id
      | true => cases hfirst
    | _ => exact id

end Wakeful

theorem reachable_wakeful {p : Pool Socket Call} (h : socket.ReachableVia EmptyBuffers p) :
    Wakeful p := by
  refine h.invariant Wakeful.start ?_ ?_ ?_
  · intro p i call hp hempty hfree hfirst
    refine hp.begin hfree hfirst ?_
    cases call with
    | pollRead buf registered => exact hempty
    | _ => trivial
  · intro p i choice call s' call' hp _ hcall hact
    have hact : act i p.shared call = (s', call') := Option.some.inj hact
    have hp' := hp.act hcall
    rwa [hact] at hp'
  · intro p e
    exact e.elim

/-- **No lost wake.** In every run on empty buffers with room, in any interleaving: when the last
poll has answered `Pending`, its waker has not been woken since it registered, and no push is
between its update and its wake, then there is no byte, no end and no error to be told. -/
theorem no_lost_wake {p : Pool Socket Call} (h : socket.ReachableVia EmptyBuffers p)
    (hpending : lastPoll p.shared.history = some .pending)
    (hlast : ¬ p.Any Call.isRegistered) (hwoken : p.shared.state.readWaker.woken = false)
    (hpush : ¬ p.Any Call.owesWake) :
    queued p.shared.state.read.pending = [] ∧ p.shared.state.read.eof = false ∧
      p.shared.state.read.err = none := by
  have hidle := ((reachable_wakeful h).waiting hpending hlast hwoken).resolve_left hpush
  exact ⟨hidle.queued, hidle.eof, hidle.err⟩

/-- A byte is pushed and read, and the next poll waits. -/
def readThenWait : List (Move Call Unit Empty) :=
  [.begin 0 (.push (.data [1]) .check), .act 0 (), .act 0 (), .act 0 (),
    .begin 0 (.pollRead ⟨[], 2, by decide⟩ false), .act 0 (), .act 0 (),
    .begin 0 (.pollRead ⟨[], 2, by decide⟩ false), .act 0 (), .act 0 ()]

theorem no_lost_wake_readThenWait :
    ∃ p, socket.ReachableVia EmptyBuffers p ∧ lastPoll p.shared.history = some .pending ∧
      p.shared.state.readWaker.woken = false ∧ queued p.shared.state.read.pending = [] ∧
      p.shared.state.read.eof = false ∧ p.shared.state.read.err = none := by
  obtain ⟨p, hp, hlast, hwoken, hzero⟩ : ∃ p, socket.run socket.start readThenWait = some p ∧
      lastPoll p.shared.history = some .pending ∧ p.shared.state.readWaker.woken = false ∧
      p.tasks 0 = none := ⟨_, rfl, rfl, rfl, rfl⟩
  have hreach : socket.ReachableVia EmptyBuffers p := by
    refine Object.ReachableVia.run .start readThenWait hp ?_
    simp [readThenWait, EmptyBuffers, ReadBuf.remaining]
  have hnone (j : Nat) : p.tasks j = none := by
    by_cases hj : j = 0
    · rw [hj, hzero]
    · refine Object.tasks_eq_none_of_run readThenWait hp rfl ?_
      intro i t hmem
      have hi : i = 0 := by
        simp only [readThenWait, List.mem_cons, Move.begin.injEq, reduceCtorEq, List.not_mem_nil] at hmem
        tauto
      rw [hi]
      exact Ne.symm hj
  have hany (Q : Call → Prop) : ¬ p.Any Q := by
    rintro ⟨j, t, ht, -⟩
    rw [hnone j] at ht
    cases ht
  exact ⟨p, hreach, hlast, hwoken, no_lost_wake hreach hlast (hany _) hwoken (hany _)⟩

end Lonesome.VirtualJs
