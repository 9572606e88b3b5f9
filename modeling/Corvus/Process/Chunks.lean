import Corvus.Library.Lines
import Corvus.Process.Protocol
import Mathlib.Data.List.Induction

/-!
# Chunks of the output

`_read_stdout` is given the output of the process in chunks. The limit on frames is checked on
a line without its carriage return, but also on whatever a chunk leaves in the buffer: a line
that is as long as the limit is refused when a chunk ends between its carriage return and its
newline, and only then.
-/

namespace Corvus.Process

open Run

/-- `_READ_CHUNK_BYTES`. -/
def readChunkBytes : Nat := 65536

/-- What `reader.read` may return one after the other. -/
structure Chunked (output : List UInt8) (chunks : List (List UInt8)) : Prop where
  flatten : chunks.flatten = output
  sizes : ∀ chunk ∈ chunks, chunk ≠ [] ∧ chunk.length ≤ readChunkBytes

/-- `_read_stdout` from its first chunk to the end of the output. -/
def reading (C : Codec) (limits : Limits) (chunks : List (List UInt8)) : Session :=
  exec (Session.step C limits) .start (chunks.map .stdout ++ [.stdoutEnd])

/-- The frames of an output: its lines, and what follows the last newline. -/
def framesOf (output : List UInt8) : List (List UInt8) :=
  (linesOf output).map withoutReturn ++ if restOf output = [] then [] else [restOf output]

/-- A frame is a JSON object. -/
def IsObject (C : Codec) (frame : List UInt8) (members : List (String × Json)) : Prop :=
  ∃ text, decodeUtf8 frame = some text ∧ C.loads text = .ok (.obj members)

/-- The event of a frame. -/
def Parsed (C : Codec) (frame : List UInt8) (e : SessionEvent) : Prop :=
  ∃ members, IsObject C frame members ∧ e.kind = .frame ∧
    e.frame = some (C.redactValue members)

/-- The reader has come to the end of an output, with an event for each frame. -/
structure Framed (C : Codec) (output : List UInt8) (s : Session) : Prop where
  done : s.stdoutReader.task = .done
  frames : List.Forall₂ (Parsed C) (framesOf output) s.events

/-- The chunks make no difference to the reader. -/
def ChunkFree (C : Codec) (limits : Limits) (output : List UInt8) : Prop :=
  ∀ chunks chunks', Chunked output chunks → Chunked output chunks' →
    ((reading C limits chunks).stdoutReader.task = .failed ∧
      (reading C limits chunks').stdoutReader.task = .failed) ∨
    (Framed C output (reading C limits chunks) ∧ Framed C output (reading C limits chunks') ∧
      (reading C limits chunks).events = (reading C limits chunks').events)

/-- An output passes every check, where a frame is a line without its carriage return. -/
structure Accepted (C : Codec) (limits : Limits) (output : List UInt8) : Prop where
  total : output.length ≤ limits.maxStdoutBytes
  count : (framesOf output).length ≤ limits.maxFrames
  room : (framesOf output).length ≤ limits.maxEvents - 1
  each : ∀ frame ∈ framesOf output, frame.length ≤ limits.maxFrameBytes ∧
    ∃ members, IsObject C frame members

variable {C : Codec} {limits : Limits} {s : Session} {events mid events' : List SessionEvent}
  {n m : Nat} {frame a b chunk p output : List UInt8} {frames frames' lines : List (List UInt8)}
  {chunks : List (List UInt8)}

/-! ## Frames that are accepted -/

theorem acceptFrame_eq_ok : acceptFrame C limits events frame n = .ok events' ↔
    frame.length ≤ limits.maxFrameBytes ∧ n ≤ limits.maxFrames ∧
      events.length < limits.maxEvents - 1 ∧
      ∃ members, IsObject C frame members ∧
        events' = events ++ [⟨events.length + 1, .frame, some (C.redactValue members), none, none,
          none⟩] := by
  constructor
  · intro accepted
    obtain ⟨value, parsed, accepted⟩ := bind_eq_ok.mp accepted
    obtain ⟨_, room, accepted⟩ := bind_eq_ok.mp accepted
    obtain ⟨_, size, parsed⟩ := bind_eq_ok.mp parsed
    obtain ⟨_, count, parsed⟩ := bind_eq_ok.mp parsed
    obtain ⟨text, decoded, parsed⟩ := bind_eq_ok.mp parsed
    obtain ⟨json, loaded, parsed⟩ := bind_eq_ok.mp parsed
    refine ⟨not_lt.mp (refuse_eq_ok.mp size), not_lt.mp (refuse_eq_ok.mp count),
      not_le.mp (refuse_eq_ok.mp room), ?_⟩
    cases json with
    | obj members =>
      cases parsed
      exact ⟨members, ⟨text, present_eq_ok.mp decoded, loaded⟩, (Except.ok.inj accepted).symm⟩
    | _ => exact absurd parsed throw_ne_ok
  · rintro ⟨size, count, room, members, ⟨text, decoded, loaded⟩, rfl⟩
    refine bind_eq_ok.mpr ⟨C.redactValue members, ?_, ?_⟩
    · refine bind_eq_ok.mpr ⟨⟨⟩, refuse_of_not (not_lt.mpr size), ?_⟩
      refine bind_eq_ok.mpr ⟨⟨⟩, refuse_of_not (not_lt.mpr count), ?_⟩
      refine bind_eq_ok.mpr ⟨text, present_eq_ok.mpr decoded, ?_⟩
      exact bind_eq_ok.mpr ⟨_, loaded, rfl⟩
    · exact bind_eq_ok.mpr ⟨⟨⟩, refuse_of_not (not_le.mpr room), rfl⟩

/-- Frames are accepted one after the other. -/
inductive Takes (C : Codec) (limits : Limits) :
    List SessionEvent → Nat → List (List UInt8) → List SessionEvent → Prop
  | nil {events : List SessionEvent} {n : Nat} : Takes C limits events n [] events
  | cons {events mid events' : List SessionEvent} {n : Nat} {frame : List UInt8}
      {frames : List (List UInt8)} (first : acceptFrame C limits events frame (n + 1) = .ok mid)
      (rest : Takes C limits mid (n + 1) frames events') :
      Takes C limits events n (frame :: frames) events'

theorem takes_nil : Takes C limits events n [] events' ↔ events' = events := by
  constructor
  · rintro ⟨⟩
    rfl
  · rintro rfl
    exact .nil

theorem takes_cons : Takes C limits events n (frame :: frames) events' ↔
    ∃ mid, acceptFrame C limits events frame (n + 1) = .ok mid ∧
      Takes C limits mid (n + 1) frames events' := by
  constructor
  · rintro ⟨⟩
    exact ⟨_, ‹_›, ‹_›⟩
  · rintro ⟨mid, first, rest⟩
    exact .cons first rest

theorem takes_append : Takes C limits events n (frames ++ frames') events' ↔
    ∃ mid, Takes C limits events n frames mid ∧
      Takes C limits mid (n + frames.length) frames' events' := by
  induction frames generalizing events n with
  | nil => simp [takes_nil]
  | cons frame frames ih =>
    have shift : n + 1 + frames.length = n + (frame :: frames).length := by
      rw [List.length_cons]
      omega
    simp only [List.cons_append, takes_cons, ih, shift]
    constructor
    · rintro ⟨first, accepted, mid, before, after⟩
      exact ⟨mid, ⟨first, accepted, before⟩, after⟩
    · rintro ⟨mid, ⟨first, accepted, before⟩, after⟩
      exact ⟨first, accepted, mid, before, after⟩

theorem Takes.unique (takes : Takes C limits events n frames mid)
    (takes' : Takes C limits events n frames events') : mid = events' := by
  induction takes with
  | nil => exact (takes_nil.mp takes').symm
  | cons first _ ih =>
    obtain ⟨mid', first', rest'⟩ := takes_cons.mp takes'
    obtain rfl := Except.ok.inj (first.symm.trans first')
    exact ih rest'

theorem Takes.parsed (takes : Takes C limits events n frames events') :
    ∃ new, events' = events ++ new ∧ List.Forall₂ (Parsed C) frames new := by
  induction takes with
  | nil => exact ⟨[], (List.append_nil _).symm, .nil⟩
  | cons first _ ih =>
    obtain ⟨-, -, -, members, object, rfl⟩ := acceptFrame_eq_ok.mp first
    obtain ⟨new, rfl, parsed⟩ := ih
    exact ⟨_ :: new, List.append_assoc _ _ _, .cons ⟨members, object, rfl, rfl⟩ parsed⟩

/-- What it takes for frames to be accepted. -/
theorem exists_takes (count : n ≤ limits.maxFrames) (room : events.length ≤ limits.maxEvents - 1) :
    (∃ events', Takes C limits events n frames events') ↔
      n + frames.length ≤ limits.maxFrames ∧
      events.length + frames.length ≤ limits.maxEvents - 1 ∧
      ∀ frame ∈ frames, frame.length ≤ limits.maxFrameBytes ∧
        ∃ members, IsObject C frame members := by
  induction frames generalizing events n with
  | nil => simpa [takes_nil] using ⟨count, room⟩
  | cons frame frames ih =>
    rw [List.forall_mem_cons, List.length_cons]
    constructor
    · rintro ⟨events', takes⟩
      obtain ⟨mid, first, rest⟩ := takes_cons.mp takes
      obtain ⟨size, count', room', members, object, rfl⟩ := acceptFrame_eq_ok.mp first
      obtain ⟨counts, rooms, each⟩ := (ih count' (by rwa [List.length_append])).mp ⟨_, rest⟩
      rw [List.length_append, List.length_singleton] at rooms
      exact ⟨by omega, by omega, ⟨size, members, object⟩, each⟩
    · rintro ⟨counts, rooms, ⟨size, members, object⟩, each⟩
      obtain ⟨mid, first, more⟩ : ∃ mid, acceptFrame C limits events frame (n + 1) = .ok mid ∧
          mid.length = events.length + 1 :=
        ⟨_, acceptFrame_eq_ok.mpr ⟨size, by omega, by omega, members, object, rfl⟩,
          List.length_append⟩
      obtain ⟨events', rest⟩ := (@ih mid (n + 1) (by omega) (by omega)).mpr
        ⟨by omega, by omega, each⟩
      exact ⟨events', .cons first rest⟩

theorem acceptFrames_eq_ok : acceptFrames C limits events n lines = (events', .ok m) ↔
    m = n + lines.length ∧ Takes C limits events n (lines.map withoutReturn) events' := by
  induction lines generalizing events n with
  | nil =>
    rw [acceptFrames, List.map_nil, takes_nil, Prod.mk.injEq, Except.ok.injEq]
    constructor
    · rintro ⟨same, same'⟩
      exact ⟨same'.symm, same.symm⟩
    · rintro ⟨same, same'⟩
      exact ⟨same'.symm, same.symm⟩
  | cons line lines ih =>
    rw [acceptFrames, List.map_cons, takes_cons, List.length_cons]
    cases accepted : acceptFrame C limits events (withoutReturn line) (n + 1) with
    | ok mid =>
      have shift : n + 1 + lines.length = n + (lines.length + 1) := by omega
      rw [show acceptFrames C limits mid (n + 1) lines = (events', .ok m) ↔ _ from ih, shift]
      constructor
      · rintro ⟨rfl, takes⟩
        exact ⟨rfl, mid, rfl, takes⟩
      · rintro ⟨rfl, mid', same, takes⟩
        rw [Except.ok.inj same]
        exact ⟨rfl, takes⟩
    | error reason =>
      constructor
      · intro same
        cases congrArg Prod.snd same
      · rintro ⟨-, mid, same, -⟩
        cases same

/-! ## Reading chunk by chunk -/

/-- The reader has been given the beginning of an output. -/
structure Fed (C : Codec) (limits : Limits) (p : List UInt8) (s : Session) : Prop where
  running : s.stdoutReader.task = .running
  total : s.stdoutReader.total = p.length
  buffer : s.stdoutReader.buffer = restOf p
  count : s.stdoutReader.frameCount = (linesOf p).length
  takes : Takes C limits [] 0 ((linesOf p).map withoutReturn) s.events

/-- The checks after a chunk, on all of what has been read. -/
structure Fits (C : Codec) (limits : Limits) (p : List UInt8) : Prop where
  total : p.length ≤ limits.maxStdoutBytes
  takes : ∃ events, Takes C limits [] 0 ((linesOf p).map withoutReturn) events
  rest : (restOf p).length ≤ limits.maxFrameBytes

theorem fits_nil : Fits C limits [] := ⟨Nat.zero_le _, ⟨[], .nil⟩, Nat.zero_le _⟩

theorem fed_start : Fed C limits [] .start := ⟨rfl, rfl, rfl, rfl, .nil⟩

/-- A chunk. -/
theorem Fed.read (fed : Fed C limits p s) (chunk : List UInt8) :
    Fits C limits (p ++ chunk) ∧
        Fed C limits (p ++ chunk) (s.step C limits (.stdout chunk)) ∨
      ¬ Fits C limits (p ++ chunk) ∧
        (s.step C limits (.stdout chunk)).stdoutReader.task = .failed := by
  have lines : linesOf (p ++ chunk) = linesOf p ++ linesOf (restOf p ++ chunk) :=
    Lines.complete_append
  have rest : restOf (p ++ chunk) = restOf (restOf p ++ chunk) := Lines.rest_append
  have size : (p ++ chunk).length = p.length + chunk.length := List.length_append
  rw [Session.step, if_pos fed.running, Session.readStdout]
  simp only [fed.total, fed.buffer, fed.count, ← rest, ← size]
  by_cases excess : limits.maxStdoutBytes < (p ++ chunk).length
  · rw [if_pos excess]
    exact .inr ⟨fun fits => Nat.not_le_of_lt excess fits.total, rfl⟩
  rw [if_neg excess]
  have split (events) : Takes C limits [] 0 ((linesOf (p ++ chunk)).map withoutReturn) events ↔
      Takes C limits s.events (linesOf p).length
        ((linesOf (restOf p ++ chunk)).map withoutReturn) events := by
    rw [lines, List.map_append, takes_append, List.length_map, Nat.zero_add]
    constructor
    · rintro ⟨mid, before, after⟩
      rwa [before.unique fed.takes] at after
    · exact fun after => ⟨_, fed.takes, after⟩
  rcases accepted : acceptFrames C limits s.events (linesOf p).length
    (linesOf (restOf p ++ chunk)) with ⟨events, reason | count⟩
  case error =>
    refine .inr ⟨fun fits => ?_, rfl⟩
    obtain ⟨events', takes⟩ := fits.takes
    cases congrArg Prod.snd
      (accepted.symm.trans (acceptFrames_eq_ok.mpr ⟨rfl, (split _).mp takes⟩))
  case ok =>
    obtain ⟨rfl, takes⟩ := acceptFrames_eq_ok.mp accepted
    by_cases long : limits.maxFrameBytes < (restOf (p ++ chunk)).length
    · simp only [if_pos long]
      exact .inr ⟨fun fits => Nat.not_le_of_lt long fits.rest, rfl⟩
    · simp only [if_neg long]
      have takes' := (split _).mpr takes
      refine .inl ⟨⟨not_lt.mp excess, ⟨_, takes'⟩, not_lt.mp long⟩, rfl, rfl, rfl, ?_, takes'⟩
      rw [lines]
      exact List.length_append.symm

/-- All chunks. -/
theorem reads (C : Codec) (limits : Limits) (chunks : List (List UInt8)) :
    (∀ xs, xs <+: chunks → Fits C limits xs.flatten) ∧
        Fed C limits chunks.flatten (exec (Session.step C limits) .start (chunks.map .stdout)) ∨
      ¬ (∀ xs, xs <+: chunks → Fits C limits xs.flatten) ∧
        (exec (Session.step C limits) .start (chunks.map .stdout)).stdoutReader.task =
          .failed := by
  induction chunks using List.reverseRecOn with
  | nil =>
    refine .inl ⟨fun xs before => ?_, fed_start⟩
    rw [List.prefix_nil.mp before]
    exact fits_nil
  | append_singleton chunks chunk ih =>
    rw [List.map_append, exec_append, List.map_singleton, exec_cons, exec_nil]
    have all : (∀ xs, xs <+: chunks ++ [chunk] → Fits C limits xs.flatten) ↔
        (∀ xs, xs <+: chunks → Fits C limits xs.flatten) ∧
          Fits C limits (chunks.flatten ++ chunk) := by
      simp only [List.prefix_concat_iff, or_imp, forall_and, forall_eq, List.flatten_append,
        List.flatten_singleton]
      exact and_comm
    rw [all, List.flatten_append, List.flatten_singleton]
    obtain ⟨fits, fed⟩ | ⟨unfit, failed⟩ := ih
    · obtain ⟨fit, fed⟩ | ⟨unfit, failed⟩ := fed.read chunk
      · exact .inl ⟨⟨fits, fit⟩, fed⟩
      · exact .inr ⟨fun all => unfit all.2, failed⟩
    · refine .inr ⟨fun all => unfit all.1, ?_⟩
      rw [Session.step, if_neg]
      · exact failed
      · rw [failed]
        decide

/-- What the reader leaves in its buffer after each chunk is no longer than a frame may be. -/
def Short (limits : Limits) (chunks : List (List UInt8)) : Prop :=
  ∀ xs, xs <+: chunks → (restOf xs.flatten).length ≤ limits.maxFrameBytes

/-- The frames of an output that is accepted. -/
theorem exists_takes_framesOf : Accepted C limits output ↔
    output.length ≤ limits.maxStdoutBytes ∧
      ∃ events, Takes C limits [] 0 (framesOf output) events := by
  rw [exists_takes (Nat.zero_le _) (Nat.zero_le _), Nat.zero_add, List.length_nil, Nat.zero_add]
  constructor
  · intro accepted
    exact ⟨accepted.total, accepted.count, accepted.room, accepted.each⟩
  · rintro ⟨total, count, room, each⟩
    exact ⟨total, count, room, each⟩

theorem flatten_of_beginning {xs chunks : List (List UInt8)} (before : xs <+: chunks) :
    xs.flatten <+: chunks.flatten := by
  obtain ⟨ys, rfl⟩ := before
  exact ⟨ys.flatten, List.flatten_append.symm⟩

/-- The lines of the beginning of an output. -/
theorem Accepted.fits (accepted : Accepted C limits output) (before : p <+: output)
    (short : (restOf p).length ≤ limits.maxFrameBytes) : Fits C limits p := by
  obtain ⟨total, events, takes⟩ := exists_takes_framesOf.mp accepted
  obtain ⟨b, rfl⟩ := before
  have lines : linesOf (p ++ b) = linesOf p ++ linesOf (restOf p ++ b) := Lines.complete_append
  rw [framesOf, lines, List.map_append, List.append_assoc] at takes
  obtain ⟨mid, takes, -⟩ := takes_append.mp takes
  exact ⟨(List.prefix_append p b).length_le.trans total, ⟨mid, takes⟩, short⟩

/-- The end of the output. -/
theorem Fed.finish (fed : Fed C limits output s) :
    (∃ events, Takes C limits [] 0 (framesOf output) events ∧
      (s.step C limits .stdoutEnd).events = events ∧
      (s.step C limits .stdoutEnd).stdoutReader.task = .done) ∨
    ¬ (∃ events, Takes C limits [] 0 (framesOf output) events) ∧
      (s.step C limits .stdoutEnd).stdoutReader.task = .failed := by
  have split (events) : Takes C limits [] 0 (framesOf output) events ↔
      Takes C limits s.events (linesOf output).length
        (if restOf output = [] then [] else [restOf output]) events := by
    rw [framesOf, takes_append, List.length_map, Nat.zero_add]
    constructor
    · rintro ⟨mid, before, after⟩
      rwa [before.unique fed.takes] at after
    · exact fun after => ⟨_, fed.takes, after⟩
  simp only [split]
  rw [Session.step, if_pos fed.running, Session.endStdout, fed.buffer, fed.count]
  by_cases none_ : restOf output = []
  · rw [if_pos none_, if_pos none_]
    exact .inl ⟨_, .nil, rfl, rfl⟩
  · rw [if_neg none_, if_neg none_]
    cases accepted : acceptFrame C limits s.events (restOf output)
      ((linesOf output).length + 1) with
    | ok events => exact .inl ⟨events, .cons accepted .nil, rfl, rfl⟩
    | error reason =>
      refine .inr ⟨?_, rfl⟩
      rintro ⟨events, takes⟩
      obtain ⟨mid, first, -⟩ := takes_cons.mp takes
      cases accepted.symm.trans first

/-- What comes of reading an output in chunks. -/
theorem reading_cases (C : Codec) (limits : Limits) (chunks : List (List UInt8)) :
    (Accepted C limits chunks.flatten ∧ Short limits chunks) ∧
        (reading C limits chunks).stdoutReader.task = .done ∧
        Takes C limits [] 0 (framesOf chunks.flatten) (reading C limits chunks).events ∨
      ¬ (Accepted C limits chunks.flatten ∧ Short limits chunks) ∧
        (reading C limits chunks).stdoutReader.task = .failed := by
  have all : Accepted C limits chunks.flatten ∧ Short limits chunks ↔
      (∀ xs, xs <+: chunks → Fits C limits xs.flatten) ∧
        ∃ events, Takes C limits [] 0 (framesOf chunks.flatten) events := by
    constructor
    · rintro ⟨accepted, short⟩
      refine ⟨fun xs before => ?_, (exists_takes_framesOf.mp accepted).2⟩
      exact accepted.fits (flatten_of_beginning before) (short xs before)
    · rintro ⟨fits, takes⟩
      refine ⟨exists_takes_framesOf.mpr ⟨(fits _ (List.prefix_refl _)).total, takes⟩, ?_⟩
      exact fun xs before => (fits xs before).rest
  rw [all, reading, exec_append, exec_cons, exec_nil]
  obtain ⟨fits, fed⟩ | ⟨unfit, failed⟩ := reads C limits chunks
  · obtain ⟨events, takes, rfl, done⟩ | ⟨none_, failed⟩ := fed.finish
    · exact .inl ⟨⟨fits, _, takes⟩, done, takes⟩
    · exact .inr ⟨fun all => none_ all.2, failed⟩
  · refine .inr ⟨fun all => unfit all.1, ?_⟩
    rw [Session.step, if_neg]
    · exact failed
    · rw [failed]
      decide

/-! ## Where a chunk may end -/

theorem length_withoutReturn (line : List UInt8) :
    line.length ≤ (withoutReturn line).length + 1 := by
  rw [withoutReturn]
  split
  · rw [List.length_dropLast]
    omega
  · exact Nat.le_succ _

/-- What a chunk leaves behind is too long only between a carriage return and its newline. -/
theorem Accepted.rest_le (accepted : Accepted C limits (a ++ b)) :
    (restOf a).length ≤ limits.maxFrameBytes ∨
      restOf a ∈ linesOf (a ++ b) ∧ a.getLast? = some 13 ∧ b.head? = some 10 := by
  have lines (line) (mem : line ∈ linesOf (a ++ b)) :
      (withoutReturn line).length ≤ limits.maxFrameBytes :=
    (accepted.each _ (List.mem_append_left _ (List.mem_map_of_mem mem))).1
  obtain ⟨u, v, rfl, line⟩ | all := Lines.rest_prefix (10 : UInt8) a b
  · have short := lines _ line
    cases u with
    | nil =>
      rw [List.append_nil] at line short
      by_cases last : (restOf a).getLast? = some 13
      · refine .inr ⟨line, ?_, rfl⟩
        obtain ⟨q, same⟩ : restOf a <:+ a := Lines.rest_suffix
        rw [← same, List.getLast?_append]
        exact congrArg (·.or q.getLast?) last
      · have same : withoutReturn (restOf a) = restOf a := if_neg last
        exact .inl (same ▸ short)
    | cons x u =>
      have size := length_withoutReturn (Lines.rest 10 a ++ x :: u)
      rw [List.length_append, List.length_cons] at size
      exact .inl (show (Lines.rest 10 a).length ≤ _ by omega)
  · have size : (restOf a).length ≤ (restOf (a ++ b)).length :=
      (List.prefix_append _ b).length_le.trans_eq (congrArg List.length all)
    by_cases none_ : restOf (a ++ b) = []
    · rw [none_] at size
      exact .inl (size.trans (Nat.zero_le _))
    · refine .inl (size.trans (accepted.each _ (List.mem_append_right _ ?_)).1)
      rw [if_neg none_]
      exact List.mem_singleton_self _

/-- An output can be read so that no chunk ends between a carriage return and a newline. -/
theorem exists_unbroken (output : List UInt8) :
    ∃ chunks, Chunked output chunks ∧ ∀ xs ys, chunks = xs ++ ys →
      ¬ (xs.flatten.getLast? = some 13 ∧ ys.flatten.head? = some 10) := by
  induction size : output.length using Nat.strongRecOn generalizing output with
  | _ n ih =>
    cases output with
    | nil => exact ⟨[], ⟨rfl, by simp⟩, by simp⟩
    | cons x output =>
      rw [List.length_cons] at size
      by_cases pair : x = 13 ∧ output.head? = some 10
      · obtain ⟨rfl, first⟩ := pair
        obtain ⟨output, rfl⟩ := List.head?_eq_some_iff.mp first
        rw [List.length_cons] at size
        obtain ⟨chunks, chunked, unbroken⟩ := ih output.length (by omega) output rfl
        refine ⟨[13, 10] :: chunks, ⟨congrArg ([13, 10] ++ ·) chunked.flatten, ?_⟩, ?_⟩
        · exact List.forall_mem_cons.mpr
            ⟨⟨List.cons_ne_nil _ _, (by decide : 2 ≤ readChunkBytes)⟩, chunked.sizes⟩
        · rintro xs ys same ⟨last, next⟩
          obtain ⟨rfl, rfl⟩ | ⟨xs, rfl, rfl⟩ := List.cons_eq_append_iff.mp same
          · cases last
          · refine unbroken xs ys rfl ⟨?_, next⟩
            rw [List.flatten_cons, List.getLast?_append] at last
            cases none_ : xs.flatten.getLast? with
            | none => rw [none_] at last; exact absurd last (by decide)
            | some y => rwa [none_] at last
      · obtain ⟨chunks, chunked, unbroken⟩ := ih output.length (by omega) output rfl
        refine ⟨[x] :: chunks, ⟨congrArg ([x] ++ ·) chunked.flatten, ?_⟩, ?_⟩
        · exact List.forall_mem_cons.mpr
            ⟨⟨List.cons_ne_nil _ _, (by decide : 1 ≤ readChunkBytes)⟩, chunked.sizes⟩
        · rintro xs ys same ⟨last, next⟩
          obtain ⟨rfl, rfl⟩ | ⟨xs, rfl, rfl⟩ := List.cons_eq_append_iff.mp same
          · cases last
          · rw [List.flatten_cons, List.getLast?_append] at last
            cases none_ : xs.flatten.getLast? with
            | none =>
              rw [none_] at last
              refine pair ⟨Option.some.inj last, ?_⟩
              rwa [← chunked.flatten, List.flatten_append, List.getLast?_eq_none_iff.mp none_]
            | some y =>
              rw [none_] at last
              exact unbroken xs ys rfl ⟨none_.trans last, next⟩

/-- A chunk for each byte. -/
theorem chunked_singles (output : List UInt8) : Chunked output (output.map fun x => [x]) := by
  refine ⟨by rw [← List.flatMap_def, List.flatMap_singleton'], fun chunk mem => ?_⟩
  obtain ⟨x, -, rfl⟩ := List.mem_map.mp mem
  exact ⟨List.cons_ne_nil x [], (by decide : 1 ≤ readChunkBytes)⟩

namespace Sample

theorem narrow_events : 0 < 8 := by decide

/-- Frames of at most two bytes. -/
def narrow : Limits := ⟨1024, 1024, 2, 8, 8, narrow_events⟩

end Sample

end Corvus.Process
