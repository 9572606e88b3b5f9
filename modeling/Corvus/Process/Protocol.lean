import Corvus.Process.Session

/-!
# The protocol of the events

The events of a session are numbered without a gap and no more than allowed, whatever happens.
The terminal event is the last one, and every subscriber gets each event once and ends behind it,
as long as the reader accepts no frame once the session has ended. After a cancellation it may:
it goes on reading what the process has left in its output.
-/

namespace Corvus.Process

open Run

variable {C : Codec} {limits : Limits} {s s' : Session} {sub : Subscriber} {i : Session.Input}
  {events new : List SessionEvent} {n : Nat}

/-! ## What a step does to the events -/

/-- Frames that are appended to a number of events. -/
structure Frames (limits : Limits) (n : Nat) (new : List SessionEvent) : Prop where
  kinds : ∀ e ∈ new, e.kind = .frame
  numbered : new.map (·.sequence) = List.range' (n + 1) new.length
  room : new ≠ [] → n + new.length ≤ limits.maxEvents - 1

theorem frames_nil : Frames limits n [] :=
  ⟨fun _ mem => absurd mem List.not_mem_nil, rfl, fun some_ => absurd rfl some_⟩

/-- The line passes the checks of a frame, and an event more is allowed. -/
def Acceptable (C : Codec) (limits : Limits) (events : List SessionEvent) (line : List UInt8)
    (frameCount : Nat) : Prop :=
  (∃ frame, parseFrame C limits line frameCount = .ok frame) ∧
    events.length < limits.maxEvents - 1

theorem acceptFrame_ok {line : List UInt8} {frameCount : Nat} {events' : List SessionEvent}
    (ok : acceptFrame C limits events line frameCount = .ok events') :
    Acceptable C limits events line frameCount ∧
      ∃ e, events' = events ++ [e] ∧ Frames limits events.length [e] := by
  obtain ⟨frame, parsed, rest⟩ := bind_eq_ok.mp ok
  obtain ⟨_, room, rest⟩ := bind_eq_ok.mp rest
  obtain rfl := Except.ok.inj rest
  have room := Nat.lt_of_not_le (refuse_eq_ok.mp room)
  refine ⟨⟨⟨frame, parsed⟩, room⟩, _, rfl, ?_, rfl, fun _ => room⟩
  intro e mem
  rw [List.mem_singleton.mp mem]

theorem acceptFrame_of {line : List UInt8} {frameCount : Nat}
    (acceptable : Acceptable C limits events line frameCount) :
    ∃ events', acceptFrame C limits events line frameCount = .ok events' := by
  obtain ⟨⟨frame, parsed⟩, room⟩ := acceptable
  rw [acceptFrame, parsed, ok_bind, refuse, if_neg (Nat.not_le_of_lt room)]
  exact ⟨_, rfl⟩

/-- Some frames are accepted exactly if the first one is. -/
theorem acceptFrames_new (lines : List (List UInt8)) (frameCount : Nat) :
    ∃ new, (acceptFrames C limits events frameCount lines).1 = events ++ new ∧
      Frames limits events.length new ∧
      (new ≠ [] ↔ ∃ line ∈ lines.head?,
        Acceptable C limits events (withoutReturn line) (frameCount + 1)) := by
  induction lines generalizing events frameCount with
  | nil => exact ⟨[], (List.append_nil _).symm, frames_nil, by simp⟩
  | cons line lines ih =>
    rw [acceptFrames]
    cases accepted : acceptFrame C limits events (withoutReturn line) (frameCount + 1) with
    | ok events' =>
      obtain ⟨acceptable, e, rfl, first⟩ := acceptFrame_ok accepted
      obtain ⟨new, appended, frames, -⟩ := @ih (events ++ [e]) (frameCount + 1)
      refine ⟨e :: new, ?_, ⟨?_, ?_, fun _ => ?_⟩, ?_⟩
      · rw [appended, List.append_assoc, List.singleton_append]
      · exact List.forall_mem_cons.mpr ⟨first.kinds e (List.mem_singleton_self e), frames.kinds⟩
      · have sequence : e.sequence = events.length + 1 := (List.cons.inj first.numbered).1
        have rest := frames.numbered
        rw [List.length_append, List.length_singleton] at rest
        rw [List.map_cons, rest, sequence, List.length_cons, List.range'_succ]
      · have room := first.room (List.cons_ne_nil e [])
        cases new with
        | nil => exact room
        | cons e' new =>
          have rest := frames.room (List.cons_ne_nil e' new)
          simp only [List.length_append, List.length_cons, List.length_nil] at rest ⊢
          omega
      · exact ⟨fun _ => ⟨line, rfl, acceptable⟩, fun _ => List.cons_ne_nil e new⟩
    | error reason =>
      refine ⟨[], (List.append_nil _).symm, frames_nil, fun some_ => absurd rfl some_, ?_⟩
      rintro ⟨_, ⟨⟩, acceptable⟩
      obtain ⟨events', ok⟩ := acceptFrame_of acceptable
      exact nomatch accepted.symm.trans ok

/-- The reader is given what completes a frame that it accepts. -/
def Completes (C : Codec) (limits : Limits) (s : Session) : Session.Input → Prop
  | .stdout chunk =>
    s.stdoutReader.task = .running ∧
      s.stdoutReader.total + chunk.length ≤ limits.maxStdoutBytes ∧
      ∃ line ∈ (linesOf (s.stdoutReader.buffer ++ chunk)).head?,
        Acceptable C limits s.events (withoutReturn line) (s.stdoutReader.frameCount + 1)
  | .stdoutEnd =>
    s.stdoutReader.task = .running ∧ s.stdoutReader.buffer ≠ [] ∧
      Acceptable C limits s.events s.stdoutReader.buffer (s.stdoutReader.frameCount + 1)
  | _ => False

/-- What a step does to the events: nothing, or it appends the frames that its input completes,
or it appends the terminal event. -/
inductive Change (C : Codec) (limits : Limits) (s : Session) (i : Session.Input) (s' : Session) :
    Prop where
  | same (events : s'.events = s.events) (terminal : s'.terminal = s.terminal)
      (nothing : ¬ Completes C limits s i)
  | frames (new : List SessionEvent) (some_ : new ≠ []) (events : s'.events = s.events ++ new)
      (terminal : s'.terminal = s.terminal) (frames : Frames limits s.events.length new)
      (completes : Completes C limits s i)
  | closed (e : SessionEvent) (before : s.terminal = false) (events : s'.events = s.events ++ [e])
      (terminal : s'.terminal = true) (kind : e.kind.IsTerminal)
      (sequence : e.sequence = s.events.length + 1) (nothing : ¬ Completes C limits s i)

/-- Frames that are completed, or nothing. -/
theorem change_frames (events : s'.events = s.events ++ new) (terminal : s'.terminal = s.terminal)
    (frames : Frames limits s.events.length new) (iff : new ≠ [] ↔ Completes C limits s i) :
    Change C limits s i s' := by
  by_cases none_ : new = []
  · refine .same ?_ terminal fun completes => iff.mpr completes none_
    rw [events, none_, List.append_nil]
  · exact .frames new none_ events terminal frames (iff.mp none_)

theorem readStdout_change {chunk : List UInt8} (running : s.stdoutReader.task = .running) :
    Change C limits s (.stdout chunk) (s.readStdout C limits chunk) := by
  rw [Session.readStdout]
  by_cases over_ : limits.maxStdoutBytes < s.stdoutReader.total + chunk.length
  · rw [if_pos over_]
    exact .same rfl rfl fun completes => absurd completes.2.1 (Nat.not_le_of_lt over_)
  · rw [if_neg over_]
    obtain ⟨new, appended, frames, iff⟩ :=
      acceptFrames_new (linesOf (s.stdoutReader.buffer ++ chunk)) s.stdoutReader.frameCount
    have completes : new ≠ [] ↔ Completes C limits s (.stdout chunk) :=
      iff.trans ⟨fun first => ⟨running, Nat.le_of_not_lt over_, first⟩, fun all => all.2.2⟩
    dsimp only
    split
    · rename_i events reason accepted
      rw [accepted] at appended
      exact change_frames appended rfl frames completes
    · rename_i events frameCount accepted
      rw [accepted] at appended
      split
      · exact change_frames appended rfl frames completes
      · exact change_frames appended rfl frames completes

theorem endStdout_change (running : s.stdoutReader.task = .running) :
    Change C limits s .stdoutEnd (s.endStdout C limits) := by
  rw [Session.endStdout]
  by_cases empty : s.stdoutReader.buffer = []
  · rw [if_pos empty]
    exact .same rfl rfl fun completes => completes.2.1 empty
  · rw [if_neg empty]
    split
    · rename_i events accepted
      obtain ⟨acceptable, e, appended, frames⟩ := acceptFrame_ok accepted
      exact .frames [e] (List.cons_ne_nil e []) appended rfl frames ⟨running, empty, acceptable⟩
    · rename_i reason refused
      refine .same rfl rfl fun completes => ?_
      obtain ⟨events', ok⟩ := acceptFrame_of completes.2.2
      exact nomatch refused.symm.trans ok

/-- The terminal event is appended to a session that has not ended, to no other one. -/
theorem appendTerminal_change {kind : EventKind} {returnCode : Option Int}
    {stderr reasonCode : Option String} (terminal : kind.IsTerminal)
    (same : s'.events = s.events ∧ s'.terminal = s.terminal) (nothing : ¬ Completes C limits s i) :
    Change C limits s i (s'.appendTerminal kind returnCode stderr reasonCode) := by
  obtain ⟨events, ended⟩ := same
  rw [Session.appendTerminal]
  split
  · exact .same events ended nothing
  · rename_i before
    rw [Bool.not_eq_true, ended] at before
    have next : s'.events.length + 1 = s.events.length + 1 := by rw [events]
    exact .closed _ before (congrArg (· ++ _) events) rfl terminal next nothing

theorem acquire_change {index : Nat} :
    Change C limits s (.acquire index) (s.acquire C index) := by
  rw [Session.acquire]
  split
  · dsimp only
    split
    · exact .same rfl rfl id
    · exact .same rfl rfl id
    · exact .same rfl rfl id
    · exact .same rfl rfl id
    · rw [Session.finishNaturalExit]
      split
      · exact appendTerminal_change (.inr (.inl rfl)) ⟨rfl, rfl⟩ id
      · split
        · exact appendTerminal_change (.inr (.inr rfl)) ⟨rfl, rfl⟩ id
        · exact appendTerminal_change (.inl rfl) ⟨rfl, rfl⟩ id
  · exact .same rfl rfl id

theorem terminated_change {confirmed : Bool} :
    Change C limits s (.terminated confirmed) (s.terminated confirmed) := by
  rw [Session.terminated]
  split
  · dsimp only
    split
    · exact appendTerminal_change (.inr (.inl rfl)) ⟨rfl, rfl⟩ id
    · exact appendTerminal_change (.inr (.inr rfl)) ⟨rfl, rfl⟩ id
  · exact appendTerminal_change (.inr (.inr rfl)) ⟨rfl, rfl⟩ id
  · exact .same rfl rfl id

theorem interrupted_change : Change C limits s .interrupted s.interrupted := by
  rw [Session.interrupted]
  split
  · exact .same rfl rfl id
  · exact .same rfl rfl id

theorem step_change (C : Codec) (limits : Limits) (s : Session) (i : Session.Input) :
    Change C limits s i (s.step C limits i) := by
  cases i with
  | stdout chunk =>
    rw [Session.step]
    split
    · exact readStdout_change ‹_›
    · exact .same rfl rfl fun completes => absurd completes.1 ‹_›
  | stdoutEnd =>
    rw [Session.step]
    split
    · exact endStdout_change ‹_›
    · exact .same rfl rfl fun completes => absurd completes.1 ‹_›
  | stderr chunk =>
    rw [Session.step, Session.readStderr]
    split
    · split
      · exact .same rfl rfl id
      · exact .same rfl rfl id
    · exact .same rfl rfl id
  | stderrEnd =>
    rw [Session.step, Session.endStderr]
    split
    · split
      · exact .same rfl rfl id
      · exact .same rfl rfl id
    · exact .same rfl rfl id
  | stdinEnd failure =>
    rw [Session.step]
    split
    · cases failure with
      | none => exact .same rfl rfl id
      | some reason => exact .same rfl rfl id
    · exact .same rfl rfl id
  | exited returnCode => exact .same rfl rfl id
  | supervise timeout =>
    rw [Session.step, Session.supervise]
    split
    · exact .same rfl rfl id
    · split
      · exact .same rfl rfl id
      · split
        · exact .same rfl rfl id
        · split
          · exact .same rfl rfl id
          · exact .same rfl rfl id
  | cancel reasonCode => exact .same rfl rfl id
  | acquire index => exact acquire_change
  | terminated confirmed => exact terminated_change
  | interrupted => exact interrupted_change
  | subscribe afterSequence =>
    rw [Session.step, Session.subscribe]
    split
    · exact .same rfl rfl id
    · exact .same rfl rfl id
  | pull index => exact .same rfl rfl id

/-! ## What holds whatever happens -/

/-- The events are numbered, and there is room for the terminal one as long as it is missing. -/
structure Numbered (limits : Limits) (s : Session) : Prop where
  numbered : s.events.map (·.sequence) = List.range' 1 s.events.length
  bounded : s.events.length ≤ limits.maxEvents
  room : s.terminal = false → s.events.length ≤ limits.maxEvents - 1

theorem numbered_append (numbered : events.map (·.sequence) = List.range' 1 events.length)
    (next : new.map (·.sequence) = List.range' (events.length + 1) new.length) :
    (events ++ new).map (·.sequence) = List.range' 1 (events ++ new).length := by
  rw [List.map_append, numbered, next, List.length_append, Nat.add_comm events.length 1,
    List.range'_append_1]

theorem Change.numbered (change : Change C limits s i s') (sound : Numbered limits s) :
    Numbered limits s' := by
  cases change with
  | same events terminal nothing =>
    refine ⟨?_, ?_, ?_⟩
    · rw [events]
      exact sound.numbered
    · rw [events]
      exact sound.bounded
    · rw [events, terminal]
      exact sound.room
  | frames new some_ events terminal frames completes =>
    have room := frames.room some_
    refine ⟨?_, ?_, fun _ => ?_⟩
    · rw [events]
      exact numbered_append sound.numbered frames.numbered
    · rw [events, List.length_append]
      omega
    · rw [events, List.length_append]
      exact room
  | closed e before events terminal kind sequence nothing =>
    have room := sound.room before
    have pos := limits.events_pos
    refine ⟨?_, ?_, ?_⟩
    · rw [events]
      apply numbered_append sound.numbered
      rw [List.map_singleton, sequence]
      rfl
    · rw [events, List.length_append, List.length_singleton]
      omega
    · rw [terminal]
      exact nofun

/-! ## Subscribers -/

/-- What a subscriber has received and what it has read are the events after its start, as far
as they go; it has seen the end only when it has read all events. -/
structure Reads (s : Session) (sub : Subscriber) : Prop where
  next : sub.nextIndex = sub.start + sub.received.length
  start : sub.start ≤ s.events.length
  read : sub.received ++ sub.available <+: s.events.drop sub.start
  seen : sub.terminal = true → s.terminal = true ∧
    sub.received ++ sub.available = s.events.drop sub.start
  ended : sub.ended = true → s.terminal = true ∧ sub.available = [] ∧
    sub.received = s.events.drop sub.start

/-- What is not read yet, when nothing that is read is left. -/
theorem Reads.rest (reads : Reads s sub) (nothing : sub.available = []) :
    s.events.drop sub.start = sub.received ++ s.events.drop sub.nextIndex := by
  have read := reads.read
  rw [nothing, List.append_nil] at read
  rw [reads.next, ← List.drop_drop]
  conv_lhs => rw [← List.take_append_drop sub.received.length (s.events.drop sub.start)]
  rw [← List.prefix_iff_eq_take.mp read]

theorem Reads.unread (reads : Reads s sub) (nothing : sub.available = []) {e : SessionEvent}
    {available : List SessionEvent} (found : s.events.drop sub.nextIndex = e :: available) :
    sub.received ++ e :: available <+: s.events.drop sub.start :=
  ⟨[], by rw [List.append_nil, reads.rest nothing, found]⟩

/-- What a subscriber has received, it has received once and in order, and the next it is asked
for is the next event, or its end when the terminal event has been received. -/
structure Served (s : Session) (sub : Subscriber) : Prop where
  received : sub.received <+: s.events.drop sub.start
  ended : sub.ended = true → s.terminal = true ∧ sub.received = s.events.drop sub.start
  pulled : sub.ended = false →
    (s.pulled sub).received = (s.events.drop sub.start).take (sub.received.length + 1)
  ends : sub.ended = false → ((s.pulled sub).ended = true ↔
    s.terminal = true ∧ sub.received = s.events.drop sub.start)

/-- The four ways in which a subscriber goes on. -/
inductive Pulled (s : Session) (sub : Subscriber) : Subscriber → Prop where
  | finished (ended : sub.ended = true) : Pulled s sub sub
  | given (e : SessionEvent) (available : List SessionEvent) (more : sub.ended = false)
      (left : sub.available = e :: available) :
      Pulled s sub { sub with
        nextIndex := sub.nextIndex + 1
        available := available
        received := sub.received ++ [e] }
  | reads (e : SessionEvent) (available : List SessionEvent) (more : sub.ended = false)
      (nothing : sub.available = []) (found : s.events.drop sub.nextIndex = e :: available) :
      Pulled s sub { sub with
        nextIndex := sub.nextIndex + 1
        available := available
        terminal := s.terminal
        received := sub.received ++ [e] }
  | waits (ended : Bool) (more : sub.ended = false) (nothing : sub.available = [])
      (found : s.events.drop sub.nextIndex = []) (ends : ended = s.terminal) :
      Pulled s sub { sub with ended := ended }

theorem Reads.pulled (reads : Reads s sub) : Pulled s sub (s.pulled sub) := by
  rw [Session.pulled]
  split
  · exact .finished ‹_›
  · rename_i e available more left
    exact .given e available more left
  · rename_i more nothing
    split
    · rename_i whole
      obtain ⟨ended, -⟩ := reads.seen whole.1
      exact .waits true more nothing (List.drop_eq_nil_of_le whole.2) ended.symm
    · split
      · rename_i e available found
        exact .reads e available more nothing found
      · exact .waits _ more nothing ‹_› rfl

/-- A subscriber that goes on. -/
theorem Reads.next_reads (reads : Reads s sub) {sub' : Subscriber} (pulled : Pulled s sub sub') :
    Reads s sub' := by
  cases pulled with
  | finished ended => exact reads
  | given e available more left =>
    have split : sub.received ++ [e] ++ available = sub.received ++ sub.available := by
      rw [left, List.append_assoc, List.singleton_append]
    have read := reads.read
    have seen := reads.seen
    rw [← split] at read seen
    refine ⟨?_, reads.start, read, seen, fun ended => absurd (more.symm.trans ended) nofun⟩
    rw [reads.next, List.length_append, List.length_singleton, Nat.add_assoc]
  | reads e available more nothing found =>
    have rest := reads.rest nothing
    have whole : sub.received ++ [e] ++ available = s.events.drop sub.start := by
      rw [rest, found, List.append_assoc, List.singleton_append]
    refine ⟨?_, reads.start, whole ▸ List.prefix_refl _, fun ended => ⟨ended, whole⟩,
      fun ended => absurd (more.symm.trans ended) nofun⟩
    rw [reads.next, List.length_append, List.length_singleton, Nat.add_assoc]
  | waits ended more nothing found ends =>
    have rest := reads.rest nothing
    rw [found, List.append_nil] at rest
    exact ⟨reads.next, reads.start, reads.read, reads.seen,
      fun over_ => ⟨ends.symm.trans over_, nothing, rest.symm⟩⟩

theorem Reads.served (reads : Reads s sub) : Served s sub := by
  have read : sub.received <+: s.events.drop sub.start :=
    (List.prefix_append _ _).trans reads.read
  have more_left : ∀ e available, sub.received ++ e :: available <+: s.events.drop sub.start →
      sub.received ++ [e] = (s.events.drop sub.start).take (sub.received.length + 1) ∧
        sub.received ≠ s.events.drop sub.start := by
    intro e available rest
    rw [← List.singleton_append, ← List.append_assoc] at rest
    have first := (List.prefix_append _ _).trans rest
    have taken := List.prefix_iff_eq_take.mp first
    rw [List.length_append, List.length_singleton] at taken
    refine ⟨taken, fun whole => ?_⟩
    have le := first.length_le
    rw [← whole, List.length_append, List.length_singleton] at le
    omega
  refine ⟨read, fun ended => ⟨(reads.ended ended).1, (reads.ended ended).2.2⟩, ?_, ?_⟩
  · intro more
    have pulled := reads.pulled
    generalize s.pulled sub = sub' at pulled ⊢
    cases pulled with
    | finished ended => exact nomatch more.symm.trans ended
    | given e available _ left => exact (more_left e available (left ▸ reads.read)).1
    | reads e available _ nothing found =>
      exact (more_left e available (reads.unread nothing found)).1
    | waits ended _ nothing found ends =>
      have rest := reads.rest nothing
      rw [found, List.append_nil] at rest
      rw [rest, List.take_of_length_le (Nat.le_succ _)]
  · intro more
    have pulled := reads.pulled
    generalize s.pulled sub = sub' at pulled ⊢
    cases pulled with
    | finished ended => exact nomatch more.symm.trans ended
    | given e available _ left =>
      have unread := (more_left e available (left ▸ reads.read)).2
      exact ⟨fun ended => absurd (more.symm.trans ended) nofun, fun whole => absurd whole.2 unread⟩
    | reads e available _ nothing found =>
      have unread := (more_left e available (reads.unread nothing found)).2
      exact ⟨fun ended => absurd (more.symm.trans ended) nofun, fun whole => absurd whole.2 unread⟩
    | waits ended _ nothing found ends =>
      have rest := reads.rest nothing
      rw [found, List.append_nil] at rest
      exact ⟨fun over_ => ⟨ends.symm.trans over_, rest.symm⟩, fun whole => ends.trans whole.1⟩

/-- The events go on for whoever reads them, and not beyond the end that it has seen. -/
theorem Reads.grow (reads : Reads s sub) (grows : s.events <+: s'.events)
    (kept : s.terminal = true → s'.terminal = true ∧ s'.events = s.events) : Reads s' sub := by
  refine ⟨reads.next, reads.start.trans grows.length_le, ?_, ?_, ?_⟩
  · obtain ⟨more, grows⟩ := grows
    refine reads.read.trans ⟨more, ?_⟩
    rw [← grows, List.drop_append_of_le_length reads.start]
  · intro seen
    obtain ⟨terminal, whole⟩ := reads.seen seen
    obtain ⟨terminal', same⟩ := kept terminal
    exact ⟨terminal', same ▸ whole⟩
  · intro ended
    obtain ⟨terminal, whole⟩ := reads.ended ended
    obtain ⟨terminal', same⟩ := kept terminal
    exact ⟨terminal', same ▸ whole⟩

theorem reads_new (within : n ≤ s.events.length) : Reads s ⟨n, n, [], false, [], false⟩ :=
  ⟨rfl, within, List.nil_prefix, nofun, nofun⟩

/-! ## Who subscribes -/

@[simp] theorem appendTerminal_subscribers (s : Session) (kind : EventKind)
    (returnCode : Option Int) (stderr reasonCode : Option String) :
    (s.appendTerminal kind returnCode stderr reasonCode).subscribers = s.subscribers := by
  rw [Session.appendTerminal]
  split
  · rfl
  · rfl

theorem readStdout_subscribers (chunk : List UInt8) :
    (s.readStdout C limits chunk).subscribers = s.subscribers := by
  rw [Session.readStdout]
  split
  · rfl
  · dsimp only
    split
    · rfl
    · split
      · rfl
      · rfl

theorem endStdout_subscribers : (s.endStdout C limits).subscribers = s.subscribers := by
  rw [Session.endStdout]
  split
  · rfl
  · split
    · rfl
    · rfl

theorem readStderr_subscribers (chunk : List UInt8) :
    (s.readStderr limits chunk).subscribers = s.subscribers := by
  rw [Session.readStderr]
  split
  · rfl
  · rfl

theorem endStderr_subscribers : s.endStderr.subscribers = s.subscribers := by
  rw [Session.endStderr]
  split
  · rfl
  · rfl

theorem supervise_subscribers (timeout : Bool) :
    (s.supervise timeout).subscribers = s.subscribers := by
  rw [Session.supervise]
  split
  · rfl
  · split
    · rfl
    · split
      · rfl
      · split
        · rfl
        · rfl

theorem acquire_subscribers (index : Nat) : (s.acquire C index).subscribers = s.subscribers := by
  rw [Session.acquire]
  split
  · dsimp only
    split
    · rfl
    · rfl
    · rfl
    · rfl
    · rw [Session.finishNaturalExit]
      split
      · exact appendTerminal_subscribers _ _ _ _ _
      · split
        · exact appendTerminal_subscribers _ _ _ _ _
        · exact appendTerminal_subscribers _ _ _ _ _
  · rfl

theorem terminated_subscribers (confirmed : Bool) :
    (s.terminated confirmed).subscribers = s.subscribers := by
  rw [Session.terminated]
  split
  · dsimp only
    split
    · exact appendTerminal_subscribers _ _ _ _ _
    · exact appendTerminal_subscribers _ _ _ _ _
  · exact appendTerminal_subscribers _ _ _ _ _
  · rfl

theorem interrupted_subscribers : s.interrupted.subscribers = s.subscribers := by
  rw [Session.interrupted]
  split
  · rfl
  · rfl

/-- A subscriber after a step is one from before, or a new one, or one that has gone on. -/
theorem step_subscriber (mem : sub ∈ (s.step C limits i).subscribers) :
    sub ∈ s.subscribers ∨
      ((s.step C limits i).events = s.events ∧ (s.step C limits i).terminal = s.terminal) ∧
        ((∃ n ≤ s.events.length, sub = ⟨n, n, [], false, [], false⟩) ∨
          ∃ before ∈ s.subscribers, sub = s.pulled before) := by
  have kept : ∀ {s' : Session} {running : Prop} [Decidable running],
      s'.subscribers = s.subscribers → sub ∈ (if running then s' else s).subscribers →
        sub ∈ s.subscribers := by
    intro s' running _ same mem
    split at mem
    · exact same ▸ mem
    · exact mem
  cases i with
  | stdout chunk => exact .inl (kept (readStdout_subscribers chunk) mem)
  | stdoutEnd => exact .inl (kept endStdout_subscribers mem)
  | stderr chunk => exact .inl (kept (readStderr_subscribers chunk) mem)
  | stderrEnd => exact .inl (kept endStderr_subscribers mem)
  | stdinEnd failure =>
    refine .inl (kept ?_ mem)
    cases failure with
    | none => rfl
    | some reason => rfl
  | exited returnCode => exact .inl mem
  | supervise timeout => exact .inl ((supervise_subscribers timeout) ▸ mem)
  | cancel reasonCode => exact .inl mem
  | acquire index => exact .inl ((acquire_subscribers index) ▸ mem)
  | terminated confirmed => exact .inl ((terminated_subscribers confirmed) ▸ mem)
  | interrupted => exact .inl (interrupted_subscribers ▸ mem)
  | subscribe afterSequence =>
    rw [Session.step, Session.subscribe] at mem ⊢
    split at mem
    · exact .inl mem
    · rename_i within
      rw [if_neg within]
      obtain before | new := List.mem_append.mp mem
      · exact .inl before
      · have new := List.mem_singleton.mp new
        exact .inr ⟨⟨rfl, rfl⟩, .inl ⟨afterSequence, Nat.le_of_not_lt within, new⟩⟩
  | pull index =>
    obtain ⟨position, found⟩ := List.mem_iff_getElem?.mp mem
    obtain ⟨before, at_, same⟩ := Option.map_eq_some_iff.mp ((List.getElem?_modify ..) ▸ found)
    have from_ := List.mem_of_getElem? at_
    split at same
    · exact .inr ⟨⟨rfl, rfl⟩, .inr ⟨before, from_, same.symm⟩⟩
    · exact .inl (same ▸ from_)

/-! ## The protocol -/

/-- The events of a session, and what its subscribers get of them. -/
structure Protocol (limits : Limits) (s : Session) : Prop where
  numbered : s.events.map (·.sequence) = List.range' 1 s.events.length
  bounded : s.events.length ≤ limits.maxEvents
  open_ : s.terminal = false → ∀ e ∈ s.events, e.kind = .frame
  ended : s.terminal = true → ∃ frames e, s.events = frames ++ [e] ∧
    (∀ f ∈ frames, f.kind = .frame) ∧ e.kind.IsTerminal
  served : ∀ sub ∈ s.subscribers, Served s sub

/-- Once the session has ended, its reader is not given what completes a frame it accepts. -/
def Quiet (C : Codec) (limits : Limits) (s : Session) (i : Session.Input) : Prop :=
  s.terminal = true → ¬ Completes C limits s i

/-- What every step keeps that meets the condition. -/
structure Invariant (limits : Limits) (s : Session) : Prop where
  numbered : Numbered limits s
  open_ : s.terminal = false → ∀ e ∈ s.events, e.kind = .frame
  ended : s.terminal = true → ∃ frames e, s.events = frames ++ [e] ∧
    (∀ f ∈ frames, f.kind = .frame) ∧ e.kind.IsTerminal
  reads : ∀ sub ∈ s.subscribers, Reads s sub

theorem invariant_start (limits : Limits) : Invariant limits .start :=
  ⟨⟨rfl, Nat.zero_le _, fun _ => Nat.zero_le _⟩, fun _ => nofun, nofun, nofun⟩

theorem Invariant.protocol (sound : Invariant limits s) : Protocol limits s :=
  ⟨sound.numbered.numbered, sound.numbered.bounded, sound.open_, sound.ended,
    fun sub mem => (sound.reads sub mem).served⟩

/-- A step that meets the condition leaves the events of an ended session alone. -/
theorem Change.settled (change : Change C limits s i s') (quiet : Quiet C limits s i)
    (terminal : s.terminal = true) : s'.terminal = true ∧ s'.events = s.events := by
  cases change with
  | same events kept nothing => exact ⟨kept.trans terminal, events⟩
  | frames new some_ events kept frames completes => exact absurd completes (quiet terminal)
  | closed e before => exact absurd (before.symm.trans terminal) nofun

theorem Change.grows (change : Change C limits s i s') : s.events <+: s'.events := by
  cases change with
  | same events => exact events ▸ List.prefix_refl _
  | frames new some_ events => exact ⟨new, events.symm⟩
  | closed e before events => exact ⟨[e], events.symm⟩

theorem Invariant.step (sound : Invariant limits s) (quiet : Quiet C limits s i) :
    Invariant limits (s.step C limits i) := by
  have change := step_change C limits s i
  have kept : ∀ {sub}, Reads s sub → Reads (s.step C limits i) sub :=
    fun reads => reads.grow change.grows (change.settled quiet)
  refine ⟨change.numbered sound.numbered, ?_, ?_, ?_⟩
  · intro terminal
    cases change with
    | same events same nothing => exact events ▸ sound.open_ (same ▸ terminal)
    | frames new some_ events same frames completes =>
      intro e mem
      rw [events, List.mem_append] at mem
      exact mem.elim (sound.open_ (same ▸ terminal) e) (frames.kinds e)
    | closed e before events ended => exact absurd (terminal.symm.trans ended) nofun
  · intro terminal
    cases change with
    | same events same nothing => exact events ▸ sound.ended (same ▸ terminal)
    | frames new some_ events same frames completes =>
      exact absurd completes (quiet (same ▸ terminal))
    | closed e before events ended kind => exact ⟨s.events, e, events, sound.open_ before, kind⟩
  · intro sub mem
    obtain before | ⟨-, ⟨n, within, rfl⟩ | ⟨before, was, rfl⟩⟩ := step_subscriber mem
    · exact kept (sound.reads sub before)
    · exact kept (reads_new within)
    · have reads := sound.reads before was
      exact kept (reads.next_reads reads.pulled)

/-- A frame behind the terminal event. -/
theorem not_protocol_of_completes (terminal : s.terminal = true)
    (completes : Completes C limits s i) : ¬ Protocol limits (s.step C limits i) := by
  intro protocol
  have change := step_change C limits s i
  cases change with
  | same events same nothing => exact nothing completes
  | closed e before => exact absurd (before.symm.trans terminal) nofun
  | frames new some_ events same frames _ =>
    obtain ⟨before, e, last, -, kind⟩ := protocol.ended (same.trans terminal)
    have frame : e.kind = .frame := by
      apply frames.kinds
      have last_mem : (s.step C limits i).events.getLast? = some e := by
        rw [last, List.getLast?_concat]
      rw [events, List.getLast?_append_of_ne_nil _ some_] at last_mem
      exact List.mem_of_getLast? last_mem
    rw [frame] at kind
    exact absurd kind (by decide)

namespace Sample

def codec : Codec where
  loads := fun text => if text = "{}" then .ok (.obj []) else .error "process_frame_json_invalid"
  redactValue := id
  redact := id

def bounds : Limits := ⟨1024, 1024, 256, 8, 8, by decide⟩

/-- A session is cancelled, and the process has left a frame in its output. -/
def inputs : List Session.Input :=
  [.cancel "process_cancelled", .acquire 0, .terminated true, .stdout [123, 125, 10]]

end Sample

end Corvus.Process
