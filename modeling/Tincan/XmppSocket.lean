import Tincan.Library.Runs
import Tincan.Library.SendBuffer
import Tincan.Library.Text

namespace Tincan.XmppSocket

open Tincan.Library.Text Tincan.Library.Runs Tincan.Library.SendBuffer

inductive AsyncState
  | closed
  | stateOpen
  | tlsConnecting
  | tlsOpen
  deriving DecidableEq

/-- The socket after `Connect`, with the history of its stream: the buffer, all
that was passed to `Write`, and all that the socket below has taken. `sends`
counts the calls of `Send`. -/
structure Socket where
  state : AsyncState
  tlsDisabled : Bool
  stream : Stream Byte
  sends : Nat

def Socket.new (tlsDisabled : Bool) : Socket := ⟨.closed, tlsDisabled, ⟨[], [], []⟩, 0⟩

def Socket.onWriteEvent (S : Sink Byte) (s : Socket) : Socket :=
  { s with stream := (flush S s.sends s.stream).2, sends := (flush S s.sends s.stream).1 }

def Socket.write (S : Sink Byte) (s : Socket) (data : Bytes) : Socket :=
  { s with stream := s.stream.write data }.onWriteEvent S

/-- `slots` is what the receivers of the signal write before it returns. -/
def Socket.onConnectEvent (S : Sink Byte) (s : Socket) (slots : List Bytes) : Socket :=
  if s.state = .tlsConnecting then
    let s := slots.foldl (write S) { s with state := .tlsOpen }
    s.onWriteEvent S
  else slots.foldl (write S) { s with state := .stateOpen }

def Socket.startTls (s : Socket) (started : Bool) : Socket × Bool :=
  if s.tlsDisabled then (s, false)
  else if started then ({ s with state := .tlsConnecting }, true) else (s, false)

def Socket.close (s : Socket) (done : Bool) : Socket × Bool :=
  if s.state ≠ .stateOpen then (s, false)
  else if done then ({ s with state := .closed }, true) else (s, false)

/-- A call that has not returned: the loop of `OnWriteEvent`, or a signal of
`OnConnectEvent`, which `OnWriteEvent` may have to follow. -/
inductive Frame
  | onWriteEvent
  | onConnectEvent (flushes : Bool)
  deriving DecidableEq

/-- The socket with the calls that are in progress, the innermost first. -/
structure Session where
  socket : Socket
  calls : List Frame

inductive Event
  | write (data : Bytes)
  | writeReady
  | connected
  | signalled
  | send (written : Int)
  | drained
  | startTls (started : Bool)
  | close (done : Bool)

def Session.enter (s : Session) (socket : Socket) (call : Frame) : Session := ⟨socket, call :: s.calls⟩

/-- One sub-step. While the loop runs nothing else does; the receivers of a
signal may use the socket. -/
def step (s : Session) : Event → Option Session
  | .write data =>
    if s.calls.head? = some .onWriteEvent then none
    else some (s.enter { s.socket with stream := s.socket.stream.write data } .onWriteEvent)
  | .writeReady => if s.calls = [] then some (s.enter s.socket .onWriteEvent) else none
  | .connected =>
    if s.calls = [] then
      if s.socket.state = .tlsConnecting then
        some (s.enter { s.socket with state := .tlsOpen } (.onConnectEvent true))
      else some (s.enter { s.socket with state := .stateOpen } (.onConnectEvent false))
    else none
  | .signalled =>
    match s.calls with
    | .onConnectEvent true :: calls => some ⟨s.socket, .onWriteEvent :: calls⟩
    | .onConnectEvent false :: calls => some ⟨s.socket, calls⟩
    | _ => none
  | .send written =>
    match s.calls with
    | .onWriteEvent :: calls =>
      if s.socket.stream.buffer = [] ∨ s.socket.stream.buffer.length < written then none
      else some ⟨{ s.socket with
        stream := s.socket.stream.offered written
        sends := s.socket.sends + 1 }, if 0 < written then s.calls else calls⟩
    | _ => none
  | .drained =>
    match s.calls with
    | .onWriteEvent :: calls => if s.socket.stream.buffer = [] then some ⟨s.socket, calls⟩ else none
    | _ => none
  | .startTls started =>
    if s.calls.head? = some .onWriteEvent then none
    else some { s with socket := (s.socket.startTls started).1 }
  | .close done =>
    if s.calls.head? = some .onWriteEvent then none
    else some { s with socket := (s.socket.close done).1 }

def Initial (s : Session) : Prop := ∃ tlsDisabled, s = ⟨Socket.new tlsDisabled, []⟩

def passed : Event → Bytes
  | .write data => data
  | _ => []

/-- Nothing but `Write` and an answer of the socket below touches the stream. -/
inductive StreamStep (s : Stream Byte) : Event → Stream Byte → Prop
  | write (data : Bytes) : StreamStep s (.write data) (s.write data)
  | send (written : Int) : StreamStep s (.send written) (s.offered written)
  | other {e : Event} (h : passed e = []) : StreamStep s e s

theorem startTls_stream (s : Socket) (started : Bool) : (s.startTls started).1.stream = s.stream := by
  unfold Socket.startTls
  split_ifs <;> rfl

theorem close_stream (s : Socket) (done : Bool) : (s.close done).1.stream = s.stream := by
  unfold Socket.close
  split_ifs <;> rfl

theorem streamStep_of_step {s t : Session} {e : Event} (h : step s e = some t) :
    StreamStep s.socket.stream e t.socket.stream := by
  cases e with
  | write data =>
    simp only [step, Option.ite_none_left_eq_some, Option.some.injEq] at h
    obtain ⟨_, rfl⟩ := h
    exact .write data
  | writeReady =>
    simp only [step, Option.ite_none_right_eq_some, Option.some.injEq] at h
    obtain ⟨_, rfl⟩ := h
    exact .other rfl
  | connected =>
    simp only [step, Option.ite_none_right_eq_some] at h
    obtain ⟨_, h⟩ := h
    split at h <;> cases h <;> exact .other rfl
  | signalled =>
    simp only [step] at h
    split at h <;> cases h <;> exact .other rfl
  | send written =>
    simp only [step] at h
    split at h
    · simp only [Option.ite_none_left_eq_some, Option.some.injEq] at h
      obtain ⟨_, rfl⟩ := h
      exact .send written
    · cases h
  | drained =>
    simp only [step] at h
    split at h
    · simp only [Option.ite_none_right_eq_some, Option.some.injEq] at h
      obtain ⟨_, rfl⟩ := h
      exact .other rfl
    · cases h
  | startTls started =>
    simp only [step, Option.ite_none_left_eq_some, Option.some.injEq] at h
    obtain ⟨_, rfl⟩ := h
    dsimp only
    rw [startTls_stream]
    exact .other rfl
  | close done =>
    simp only [step, Option.ite_none_left_eq_some, Option.some.injEq] at h
    obtain ⟨_, rfl⟩ := h
    dsimp only
    rw [close_stream]
    exact .other rfl

theorem intact_streamStep {s t : Stream Byte} {e : Event} (h : s.Intact) (hst : StreamStep s e t) :
    t.Intact ∧ t.written = s.written ++ passed e := by
  cases hst with
  | write data => exact ⟨h.write data, rfl⟩
  | send written => exact ⟨h.offered written, by simp [passed]⟩
  | other he => exact ⟨h, by rw [he, List.append_nil]⟩

theorem intact_run {s t : Session} {es : List Event} (hr : Run (Steps step) s es t)
    (hs : s.socket.stream.Intact) :
    t.socket.stream.Intact ∧ t.socket.stream.written = s.socket.stream.written ++ es.flatMap passed := by
  induction hr with
  | nil => exact ⟨hs, by simp⟩
  | snoc _ hst ih =>
    obtain ⟨hi, hw⟩ := ih
    obtain ⟨hi', hw'⟩ := intact_streamStep hi (streamStep_of_step hst)
    exact ⟨hi', by rw [hw', hw]; simp⟩

/-- The steps that are taken inside the loop of one call of `OnWriteEvent`. -/
def InLoop (calls : List Frame) (s : Session) (_ : Event) : Prop := s.calls = .onWriteEvent :: calls

theorem round_step {s t : Session} {e : Event} {calls : List Frame}
    (h : Guarded (InLoop calls) (Steps step) s e t) :
    t.calls = calls ∨ t.socket.stream.buffer.length < s.socket.stream.buffer.length := by
  obtain ⟨hin, hst⟩ := h
  unfold InLoop at hin
  unfold Steps at hst
  cases e with
  | send written =>
    simp only [step, hin, Option.ite_none_left_eq_some, Option.some.injEq, not_or] at hst
    obtain ⟨⟨hb, _⟩, rfl⟩ := hst
    by_cases hw : 0 < written
    · exact .inr (Stream.length_offered hb hw)
    · exact .inl (if_neg hw)
  | drained =>
    simp only [step, hin, Option.ite_none_right_eq_some, Option.some.injEq] at hst
    obtain ⟨_, rfl⟩ := hst
    exact .inl rfl
  | _ => simp [step, hin] at hst

/-- A call of `OnWriteEvent` ends, whatever the socket below answers. -/
theorem loop_ends {calls : List Frame} {s t : Session} {es : List Event}
    (h : Run (Guarded (InLoop calls) (Steps step)) s es t) :
    t.calls = calls ∧ es.length ≤ s.socket.stream.buffer.length + 1 ∨
      es.length + t.socket.stream.buffer.length ≤ s.socket.stream.buffer.length := by
  induction h with
  | nil => exact .inr (by simp)
  | @snoc t u es e _ hst ih =>
    have hin : t.calls = .onWriteEvent :: calls := hst.1
    have hrunning : es.length + t.socket.stream.buffer.length ≤ s.socket.stream.buffer.length := by
      obtain ⟨hout, _⟩ | hle := ih
      · simp [hin] at hout
      · exact hle
    rw [List.length_append, List.length_singleton]
    obtain hend | hless := round_step hst
    · exact .inl ⟨hend, by omega⟩
    · exact .inr (by omega)

theorem loop_goesOn {calls : List Frame} {s : Session} (hs : s.calls = .onWriteEvent :: calls) :
    if s.socket.stream.buffer = [] then step s .drained = some ⟨s.socket, calls⟩
    else ∀ written : Int, written ≤ s.socket.stream.buffer.length → (step s (.send written)).isSome := by
  split
  · next hb => simp [step, hs, hb]
  · next hb =>
    intro written hle
    simp [step, hs, hb, Int.not_lt.mpr hle]

section

variable (S : Sink Byte) (calls : List Frame)

/-- The functions are what their sub-steps add up to. -/
theorem run_flush (state : AsyncState) (tlsDisabled : Bool) (n : Nat) (stream : Stream Byte) :
    ∃ es, Run (Steps step) ⟨⟨state, tlsDisabled, stream, n⟩, .onWriteEvent :: calls⟩ es
      ⟨⟨state, tlsDisabled, (flush S n stream).2, (flush S n stream).1⟩, calls⟩ := by
  fun_induction flush S n stream with
  | case1 n stream hb => exact ⟨[.drained], run_single (by simp [Steps, step, hb])⟩
  | case2 n stream hb hpos ih =>
    obtain ⟨es, hes⟩ := ih
    have hle := S.answer_le n stream.buffer
    have hsend : Steps step ⟨⟨state, tlsDisabled, stream, n⟩, .onWriteEvent :: calls⟩
        (.send (S.answer n stream.buffer))
        ⟨⟨state, tlsDisabled, stream.offered (S.answer n stream.buffer), n + 1⟩,
          .onWriteEvent :: calls⟩ := by
      simp [Steps, step, hb, Int.not_lt.mpr hle, hpos]
    exact ⟨_, run_cons hsend hes⟩
  | case3 n stream hb hpos =>
    have hle := S.answer_le n stream.buffer
    refine ⟨[.send (S.answer n stream.buffer)], run_single ?_⟩
    simp [Steps, step, hb, Int.not_lt.mpr hle, hpos, Stream.offered_of_not_pos hpos]

theorem run_onWriteEvent (s : Socket) : ∃ es, Run (Steps step) ⟨s, .onWriteEvent :: calls⟩ es
    ⟨s.onWriteEvent S, calls⟩ := run_flush S calls s.state s.tlsDisabled s.sends s.stream

theorem run_write {calls : List Frame} (s : Socket) (hc : calls.head? ≠ some .onWriteEvent)
    (data : Bytes) : ∃ es, Run (Steps step) ⟨s, calls⟩ es ⟨s.write S data, calls⟩ := by
  have hwrite : Steps step ⟨s, calls⟩ (.write data)
      ⟨{ s with stream := s.stream.write data }, .onWriteEvent :: calls⟩ := by
    simp [Steps, step, hc, Session.enter]
  obtain ⟨es, hes⟩ := run_onWriteEvent S calls { s with stream := s.stream.write data }
  exact ⟨_, run_cons hwrite hes⟩

theorem run_writes (calls : List Frame) (hc : calls.head? ≠ some .onWriteEvent) (slots : List Bytes)
    (s : Socket) : ∃ es, Run (Steps step) ⟨s, calls⟩ es ⟨slots.foldl (Socket.write S) s, calls⟩ := by
  induction slots generalizing s with
  | nil => exact ⟨[], Run.nil _⟩
  | cons data slots ih =>
    obtain ⟨es, hes⟩ := run_write S s hc data
    obtain ⟨es', hes'⟩ := ih (s.write S data)
    exact ⟨_, run_append hes hes'⟩

theorem run_onConnectEvent (s : Socket) (slots : List Bytes) :
    ∃ es, Run (Steps step) ⟨s, []⟩ es ⟨s.onConnectEvent S slots, []⟩ := by
  unfold Socket.onConnectEvent
  split
  · next htls =>
    have hconnected : Steps step ⟨s, []⟩ .connected
        ⟨{ s with state := .tlsOpen }, [.onConnectEvent true]⟩ := by
      simp [Steps, step, htls, Session.enter]
    obtain ⟨es, hes⟩ := run_writes S [.onConnectEvent true] (by simp) slots
      { s with state := .tlsOpen }
    have hsignalled : Steps step
        ⟨slots.foldl (Socket.write S) { s with state := .tlsOpen }, [.onConnectEvent true]⟩ .signalled
        ⟨slots.foldl (Socket.write S) { s with state := .tlsOpen }, [.onWriteEvent]⟩ := rfl
    obtain ⟨es', hes'⟩ := run_onWriteEvent S [] (slots.foldl (Socket.write S) { s with state := .tlsOpen })
    exact ⟨_, run_append (run_cons hconnected hes) (run_cons hsignalled hes')⟩
  · next htls =>
    have hconnected : Steps step ⟨s, []⟩ .connected
        ⟨{ s with state := .stateOpen }, [.onConnectEvent false]⟩ := by
      simp [Steps, step, htls, Session.enter]
    obtain ⟨es, hes⟩ := run_writes S [.onConnectEvent false] (by simp) slots
      { s with state := .stateOpen }
    have hsignalled : Steps step
        ⟨slots.foldl (Socket.write S) { s with state := .stateOpen }, [.onConnectEvent false]⟩ .signalled
        ⟨slots.foldl (Socket.write S) { s with state := .stateOpen }, []⟩ := rfl
    exact ⟨_, run_append (run_cons hconnected hes) (run_single hsignalled)⟩

end

/-- What was accepted and what is in the buffer is what was written, at every
point of every run, and no call of `OnWriteEvent` runs for ever. -/
theorem byte_stream_preserved (s₀ s : Session) (es : List Event) (h₀ : Initial s₀)
    (hr : Run (Steps step) s₀ es s) :
    s.socket.stream.accepted ++ s.socket.stream.buffer = es.flatMap passed ∧
    (∀ calls, s.calls = .onWriteEvent :: calls →
      (if s.socket.stream.buffer = [] then step s .drained = some ⟨s.socket, calls⟩
        else ∀ written : Int, written ≤ s.socket.stream.buffer.length →
          (step s (.send written)).isSome) ∧
      ∀ es' t, Run (Guarded (InLoop calls) (Steps step)) s es' t →
        es'.length ≤ s.socket.stream.buffer.length + 1) ∧
    ∀ S, (s.socket.onWriteEvent S).stream.accepted ++ (s.socket.onWriteEvent S).stream.buffer =
        es.flatMap passed ∧
      (s.socket.onWriteEvent S).sends ≤ s.socket.sends + s.socket.stream.buffer.length := by
  obtain ⟨tlsDisabled, rfl⟩ := h₀
  obtain ⟨hi, hw⟩ := intact_run hr rfl
  refine ⟨hi.trans hw, ?_, ?_⟩
  · intro calls hc
    refine ⟨loop_goesOn hc, ?_⟩
    intro es' t hrun
    obtain ⟨_, hle⟩ | hle := loop_ends hrun
    · exact hle
    · omega
  · intro S
    obtain ⟨hflush, hwritten⟩ := intact_flush (S := S) (n := s.socket.sends) hi
    exact ⟨hflush.trans (hwritten.trans hw), flush_offers S _ _⟩

theorem byte_stream_preserved_partly : ∃ s,
    replay step ⟨Socket.new false, []⟩ [.write [1, 2, 3], .send 2] = some s ∧
      s.socket.stream.accepted = [1, 2] ∧
      s.socket.stream.accepted ++ s.socket.stream.buffer = [1, 2, 3] := by
  have hr : replay step ⟨Socket.new false, []⟩ [.write [1, 2, 3], .send 2] =
      some ⟨⟨.closed, false, ⟨[1, 2, 3], [1, 2], [3]⟩, 1⟩, [.onWriteEvent]⟩ := rfl
  exact ⟨_, hr, rfl, (byte_stream_preserved _ _ _ ⟨false, rfl⟩ (run_of_replay hr)).1⟩

end Tincan.XmppSocket
