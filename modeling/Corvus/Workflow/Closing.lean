import Corvus.Workflow.Traces

/-!
# Coding runs are closed

When a coding run returns with one closing event, within its budget, and what it has packaged then.
-/

namespace Corvus.Workflow

open Dialogue Procedure
open Unicode (Str)

variable {w : CodingWorkflow} {t u v : Trace}

/-! ## Fences -/

/-- A text that begins with a fence and has no second line. -/
def Unterminated (raw : String) : Prop := "```".toList <+: raw.toList ∧ '\n' ∉ raw.toList

/-- Some recorded text of a provider is so. -/
def Breaks (t : Trace) : Prop := ∃ raw ∈ texts t, Unterminated raw

theorem afterLine_eq_none {s : List Char} : afterLine s = none ↔ '\n' ∉ s := by
  induction s with
  | nil => exact iff_of_true rfl List.not_mem_nil
  | cons c s ih =>
    by_cases line : c = '\n'
    · subst line
      exact iff_of_false (Option.some_ne_none s) fun absent => absent List.mem_cons_self
    · rw [afterLine.eq_3 _ _ line, ih, List.mem_cons, not_or]
      exact (and_iff_right (Ne.symm line)).symm

theorem unfence_index {raw : String} : unfence raw = .error .index ↔ Unterminated raw := by
  rw [unfence, Unterminated]
  by_cases fenced : "```".toList <+: raw.toList
  · rw [if_pos fenced, and_iff_right fenced, ← afterLine_eq_none]
    cases afterLine raw.toList with
    | none => exact iff_of_true rfl rfl
    | some rest =>
      exact iff_of_false (known (.ok _)) (Option.some_ne_none rest)
  · rw [if_neg fenced]
    exact iff_of_false (known (.ok raw)) fun both => fenced both.1

theorem read_index {raw : String} : w.read raw = .error .index ↔ Unterminated raw := by
  rw [CodingWorkflow.read, ← unfence_index]
  constructor
  · intro raises
    cases unfenced : unfence raw with
    | error e =>
      rw [unfenced] at raises
      exact congrArg _ (Except.error.inj raises)
    | ok json =>
      rw [unfenced] at raises
      exact absurd raises (known _)
  · intro broken
    rw [broken]
    rfl

theorem breaks_append : Breaks (t ++ u) ↔ Breaks t ∨ Breaks u := by
  simp only [Breaks, texts_append, List.mem_append, or_and_right, exists_or]

theorem not_breaks (silent : texts t = []) : ¬ Breaks t := by
  rintro ⟨raw, mem, -⟩
  rw [silent] at mem
  exact absurd mem List.not_mem_nil

theorem Read.index {x : Except Failure CandidatePackage} (read : Read w t x) :
    x = .error .index ↔ Breaks t := by
  cases read with
  | refused e => exact iff_of_false (known (.error e)) (not_breaks rfl)
  | unrecorded raw e => exact iff_of_false (known (.error e)) (not_breaks rfl)
  | recorded raw =>
    rw [read_index]
    constructor
    · intro broken
      exact ⟨raw, List.mem_singleton_self raw, broken⟩
    · rintro ⟨other, mem, broken⟩
      obtain rfl := List.mem_singleton.mp mem
      exact broken

/-- A text that a candidate is read from has no broken fence. -/
theorem Read.sound {package : CandidatePackage} (read : Read w t (.ok package)) : ¬ Breaks t :=
  fun broken => known (.ok package) (read.index.mpr broken)

theorem Read.attempts {x : Except Failure CandidatePackage} (read : Read w t x) :
    attempts t = 0 := by
  cases read
  all_goals rfl

theorem Read.removals {x : Except Failure CandidatePackage} (read : Read w t x) :
    removals t = [] := by
  cases read
  all_goals rfl

theorem Read.unclosed {x : Except Failure CandidatePackage} (read : Read w t x) : Unclosed t := by
  cases read
  all_goals exact List.forall_mem_nil _

/-! ## Attempts -/

/-- An attempt asks for at most one sandbox, and closes and records nothing. -/
theorem Tried.shape {number : Nat} {package : CandidatePackage}
    {x : Except Failure (Bool × Passing)} (tried : Tried w number package t x) :
    t = [] ∨ ∃ r u, t = ⟨.sandboxFactory, r⟩ :: u ∧ Plain u := by
  cases tried with
  | refused e => exact .inl rfl
  | unsandboxed e => exact .inr ⟨_, [], rfl, List.forall_mem_nil _⟩
  | stopped e plain => exact .inr ⟨_, _, rfl, plain⟩
  | verified requiredPassed planned every passes =>
    refine .inr ⟨.ok (), _, rfl, plain_append.mpr ⟨?_, plain_cons.mpr ⟨rfl, ?_⟩⟩⟩
    · exact plain_cons.mpr ⟨rfl, plain_cons.mpr ⟨rfl, every.plain⟩⟩
    · exact List.forall_mem_nil _

section Tried

variable {number : Nat} {package : CandidatePackage} {x : Except Failure (Bool × Passing)}

theorem Tried.texts (tried : Tried w number package t x) : texts t = [] := by
  obtain rfl | ⟨r, u, rfl, plain⟩ := tried.shape
  · rfl
  · exact plain.texts

theorem Tried.attempts (tried : Tried w number package t x) : attempts t ≤ 1 := by
  obtain rfl | ⟨r, u, rfl, plain⟩ := tried.shape
  · exact Nat.zero_le 1
  · have none : u.countP (·.question.opens) = 0 := plain.attempts
    rw [Workflow.attempts, List.countP_cons, none]
    exact Nat.le_refl 1

theorem Tried.removals (tried : Tried w number package t x) : removals t = [] := by
  obtain rfl | ⟨r, u, rfl, plain⟩ := tried.shape
  · rfl
  · exact plain.removals

theorem Tried.unclosed (tried : Tried w number package t x) : Unclosed t := by
  obtain rfl | ⟨r, u, rfl, plain⟩ := tried.shape
  · exact List.forall_mem_nil _
  · exact plain.unclosed

theorem Tried.known {e : Failure} (tried : Tried w number package t (.error e)) : e ≠ .index := by
  intro same
  subst same
  nomatch tried

end Tried

/-! ## Repairs -/

section Repaired

variable {left number : Nat} {package : CandidatePackage}
  {x : Except Failure (Option Passing)}

/-- The error that a run does not catch is raised for a broken fence only. -/
theorem Repaired.index (repaired : Repaired w left number package t x) :
    x = .error .index ↔ Breaks t := by
  induction repaired with
  | raised tried =>
    refine iff_of_false (fun same => tried.known (Except.error.inj same)) ?_
    exact not_breaks tried.texts
  | passed tried => exact iff_of_false (known (.ok _)) (not_breaks tried.texts)
  | failed tried =>
    refine iff_of_false (known (.ok none)) (not_breaks ?_)
    rw [texts_append, tried.texts]
    rfl
  | unbounded tried e => exact iff_of_false (known (.error e)) (not_breaks tried.texts)
  | unread tried read =>
    rw [breaks_append, or_iff_right (not_breaks tried.texts), ← read.index, Except.error.injEq,
      Except.error.injEq]
  | again tried read rest ih =>
    rw [breaks_append, or_iff_right (not_breaks tried.texts), breaks_append,
      or_iff_right read.sound, ih]
    exact Iff.rfl

theorem Repaired.attempts (repaired : Repaired w left number package t x) :
    attempts t ≤ left + 1 := by
  induction repaired with
  | raised tried => exact tried.attempts.trans (Nat.le_add_left 1 _)
  | passed tried => exact tried.attempts.trans (Nat.le_add_left 1 _)
  | failed tried =>
    rw [attempts_append]
    exact tried.attempts
  | unbounded tried e => exact tried.attempts.trans (Nat.le_add_left 1 _)
  | unread tried read =>
    rw [attempts_append, read.attempts]
    exact tried.attempts.trans (Nat.le_add_left 1 _)
  | @again _ number _ repair _ _ v _ _ tried read rest ih =>
    have beside : Workflow.attempts
        (⟨.append (.repairCreated (number + 1) repair.paths), ()⟩ :: v) =
        Workflow.attempts v := rfl
    rw [attempts_append, attempts_append, read.attempts, beside, Nat.zero_add, Nat.add_comm]
    exact Nat.add_le_add ih tried.attempts

theorem Repaired.removals (repaired : Repaired w left number package t x) : removals t = [] := by
  induction repaired with
  | raised tried => exact tried.removals
  | passed tried => exact tried.removals
  | failed tried =>
    rw [removals_append, tried.removals]
    rfl
  | unbounded tried e => exact tried.removals
  | unread tried read => rw [removals_append, tried.removals, read.removals, List.append_nil]
  | again tried read rest ih =>
    rw [removals_append, removals_append, tried.removals, read.removals]
    exact ih

/-- The loop closes a run when its budget is exhausted, and never otherwise. -/
theorem Repaired.unclosed (repaired : Repaired w left number package t x) :
    x ≠ .ok none → Unclosed t := by
  induction repaired with
  | raised tried => exact fun _ => tried.unclosed
  | passed tried => exact fun _ => tried.unclosed
  | failed tried => exact fun other => absurd rfl other
  | unbounded tried e => exact fun _ => tried.unclosed
  | unread tried read => exact fun _ => unclosed_append.mpr ⟨tried.unclosed, read.unclosed⟩
  | again tried read rest ih =>
    intro other
    refine unclosed_append.mpr ⟨tried.unclosed, unclosed_append.mpr ⟨read.unclosed, ?_⟩⟩
    exact List.forall_mem_cons.mpr ⟨rfl, ih other⟩

theorem Repaired.ends (repaired : Repaired w left number package t x) :
    x = .ok none → ∃ attempts, Ends t (.runFailed attempts) := by
  induction repaired with
  | raised tried =>
    intro same
    nomatch same
  | passed tried =>
    intro same
    nomatch same
  | failed tried => exact fun _ => ⟨_, (ends_of_closing rfl).after tried.unclosed⟩
  | unbounded tried e =>
    intro same
    nomatch same
  | unread tried read =>
    intro same
    nomatch same
  | @again _ number _ repair _ _ v _ _ tried read rest ih =>
    intro same
    obtain ⟨attempts, ends⟩ := ih same
    have appended : Unclosed [⟨.append (.repairCreated (number + 1) repair.paths), ()⟩] :=
      List.forall_mem_cons.mpr ⟨rfl, List.forall_mem_nil _⟩
    exact ⟨attempts, ((ends.after appended).after read.unclosed).after tried.unclosed⟩

variable (w) in
/-- A candidate is what the last recorded text says. -/
def Latest (t : Trace) (package : CandidatePackage) : Prop :=
  ∃ raw, (texts t).getLast? = some raw ∧ w.read raw = .ok package

theorem Latest.beside (latest : Latest w t package) (silent : texts u = []) :
    Latest w (t ++ u) package := by
  rw [Latest, texts_append, silent, List.append_nil]
  exact latest

theorem Read.latest (read : Read w u (.ok package)) : Latest w (t ++ u) package := by
  generalize outcome : Except.ok package = x at read
  cases read with
  | refused e => nomatch outcome
  | unrecorded raw e => nomatch outcome
  | recorded raw =>
    refine ⟨raw, ?_, outcome.symm⟩
    rw [texts_append]
    exact List.getLast?_append_of_ne_nil _ (List.cons_ne_nil raw [])

variable (w) in
/-- The end of a trace whose last attempt has run a plan, each command with exit code 0. -/
def Passed (t : Trace) (passing : Passing) : Prop :=
  ∃ before requiredPassed ran, t = before ++ trial w true requiredPassed passing ran ∧
    Latest w before passing.candidate ∧
    w.verificationPolicy.plan passing.candidate.testCommands passing.candidate.smokeCommand =
      .ok passing.plan ∧
    Ran passing.plan passing.results ran ∧ ∀ result ∈ passing.results, result.exitCode = 0

/-- What passes is what the last text says, after whatever has led to the loop. -/
theorem Repaired.passed_last (repaired : Repaired w left number package u x) {passing : Passing} :
    x = .ok (some passing) → ∀ t, Latest w t package → Passed w (t ++ u) passing := by
  induction repaired with
  | raised tried =>
    intro same
    nomatch same
  | passed tried =>
    intro same t latest
    obtain rfl := Option.some.inj (Except.ok.inj same)
    cases tried with
    | verified requiredPassed planned every passes =>
      exact ⟨t, requiredPassed, _, rfl, latest, planned, every, passes rfl⟩
  | failed tried =>
    intro same
    nomatch same
  | unbounded tried e =>
    intro same
    nomatch same
  | unread tried read =>
    intro same
    nomatch same
  | @again _ number _ repair first second rest _ _ tried read _ ih =>
    intro same t latest
    have appended : Latest w (t ++ first ++ second ++
        [⟨.append (.repairCreated (number + 1) repair.paths), ()⟩]) repair :=
      read.latest.beside rfl
    have passed := ih same _ appended
    simp only [List.append_assoc, List.singleton_append] at passed
    exact passed

end Repaired

/-! ## Closed runs -/

variable (w) in
/-- A bundle is delivered: the last attempt has run every planned command with exit code 0, and
what is packaged are the files of the candidate with the bytes that were read back from it. -/
def Delivered (t : Trace) (bundle : DeliveryBundle) : Prop :=
  ∃ before passing files, Passed w before passing ∧
    files.map Prod.fst = passing.candidate.paths ∧
    exchanged Port.notable t = before ++ (readings passing.number files ++
      [⟨.package files passing.plan passing.results passing.number, .ok bundle⟩,
        ⟨.append (.bundleCreated bundle), ()⟩, ⟨.removeRunRoot, .ok ()⟩])

variable (w) in
/-- A run returns, with one closing event, which is the last one, after as many attempts as its
budget allows, and delivers nothing but what has been verified. -/
structure Closed (t : Trace) (x : Except Failure (Option DeliveryBundle)) : Prop where
  returns : ∃ bundle, x = .ok bundle
  bounded : (attempts t : Int) ≤ w.maxRepairAttempts + 1
  ends : ∃ last, Ends t last
  delivers : ∀ bundle, .bundleCreated bundle ∈ events t → Delivered w t bundle

variable (w) in
/-- The redacted prompt can be encoded, no recorded text of a provider is a fence without a second
line, the folder of the run can be removed, and the budget is not below the attempts made. -/
structure Orderly (prompt : Str) (t : Trace) : Prop where
  encodes : (w.redactor.redact prompt).toString?.isSome
  fenced : ¬ Breaks t
  removed : ∀ r ∈ removals t, r = .ok ()
  budget : 0 ≤ w.maxRepairAttempts ∨ w.maxRepairAttempts = -1 ∧ attempts t = 0

theorem encode_isOk {text : Str} : (∃ s, encode text = .ok s) ↔ text.toString?.isSome := by
  rw [encode, Option.isSome_iff_exists]
  exact exists_congr fun s => present_eq_ok

theorem captured_encodes {redacted : Str} (maxCharacters : Nat)
    (encodes : redacted.toString?.isSome) : (captured redacted maxCharacters).toString?.isSome := by
  rw [captured]
  split
  · refine Str.toString?_isSome_append ?_ ?_
    · exact Str.toString?_isSome_of_subset (List.take_subset _ redacted) encodes
    · rw [Str.toString?_ofString]
      rfl
  · exact encodes

/-- A text is bounded when what the redactor leaves of it can be encoded. -/
theorem boundText_isOk {r : SecretRedactor} {text : Str} {maxCharacters : Nat} :
    (∃ bounded, r.boundText text maxCharacters = .ok bounded) ↔
      (r.redact text).toString?.isSome := by
  constructor
  · rintro ⟨bounded, done⟩
    obtain ⟨original, whole, -⟩ := bind_eq_ok.mp done
    exact encode_isOk.mp ⟨original, whole⟩
  · intro encodes
    obtain ⟨original, whole⟩ := encode_isOk.mpr encodes
    obtain ⟨kept, part⟩ := encode_isOk.mpr (captured_encodes maxCharacters encodes)
    exact ⟨_, bind_eq_ok.mpr ⟨original, whole, bind_eq_ok.mpr ⟨kept, part, rfl⟩⟩⟩

section Worked

variable {x : Except Failure (Option DeliveryBundle)}

theorem Worked.index (worked : Worked w t x) : x = .error .index ↔ Breaks t := by
  cases worked with
  | unread read => rw [← read.index, Except.error.injEq, Except.error.injEq]
  | raised read repaired =>
    rw [breaks_append, or_iff_right read.sound, ← repaired.index, Except.error.injEq,
      Except.error.injEq]
  | failed read repaired =>
    rw [breaks_append, or_iff_right read.sound, ← repaired.index]
    exact iff_of_false (known (.ok none)) (known (.ok none))
  | @unpacked _ _ _ _ passing e read repaired plain =>
    refine iff_of_false (known (.error e)) ?_
    rw [breaks_append, or_iff_right read.sound, breaks_append, ← repaired.index,
      or_iff_left (not_breaks plain.texts)]
    exact known (.ok (some passing))
  | @packed _ _ _ passing bundle files read repaired names =>
    refine iff_of_false (known (.ok (some bundle))) ?_
    have silent : texts (readings passing.number files ++
        [⟨.package files passing.plan passing.results passing.number, .ok bundle⟩,
          ⟨.append (.bundleCreated bundle), ()⟩]) = [] := by
      rw [texts_append, plain_readings.texts]
      rfl
    rw [breaks_append, or_iff_right read.sound, breaks_append, ← repaired.index,
      or_iff_left (not_breaks silent)]
    exact known (.ok (some passing))

theorem Worked.attempts (worked : Worked w t x) : attempts t ≤ w.maxRepairAttempts.toNat + 1 := by
  cases worked with
  | unread read =>
    rw [read.attempts]
    exact Nat.zero_le _
  | raised read repaired =>
    rw [attempts_append, read.attempts, Nat.zero_add]
    exact repaired.attempts
  | failed read repaired =>
    rw [attempts_append, read.attempts, Nat.zero_add]
    exact repaired.attempts
  | unpacked e read repaired plain =>
    rw [attempts_append, attempts_append, read.attempts, plain.attempts, Nat.zero_add]
    exact repaired.attempts
  | packed read repaired names =>
    rw [attempts_append, attempts_append, attempts_append, read.attempts, plain_readings.attempts,
      Nat.zero_add, Nat.zero_add]
    exact repaired.attempts

theorem Worked.removals (worked : Worked w t x) : removals t = [] := by
  cases worked with
  | unread read => exact read.removals
  | raised read repaired =>
    rw [removals_append, read.removals, repaired.removals, List.append_nil]
  | failed read repaired =>
    rw [removals_append, read.removals, repaired.removals, List.append_nil]
  | unpacked e read repaired plain =>
    rw [removals_append, removals_append, read.removals, repaired.removals, plain.removals,
      List.append_nil, List.append_nil]
  | packed read repaired names =>
    rw [removals_append, removals_append, removals_append, read.removals, repaired.removals,
      plain_readings.removals]
    rfl

theorem Worked.unclosed (worked : Worked w t x) : (∃ e, x = .error e) → Unclosed t := by
  rintro ⟨e, same⟩
  cases worked with
  | unread read => exact read.unclosed
  | raised read repaired =>
    refine unclosed_append.mpr ⟨read.unclosed, repaired.unclosed ?_⟩
    intro same
    nomatch same
  | failed read repaired => nomatch same
  | unpacked e read repaired plain =>
    refine unclosed_append.mpr ⟨read.unclosed, unclosed_append.mpr ⟨?_, plain.unclosed⟩⟩
    refine repaired.unclosed ?_
    intro same
    nomatch same
  | packed read repaired names => nomatch same

theorem Worked.failed_ends (worked : Worked w t x) :
    x = .ok none → ∃ attempts, Ends t (.runFailed attempts) := by
  intro same
  cases worked with
  | unread read => nomatch same
  | raised read repaired => nomatch same
  | failed read repaired =>
    obtain ⟨attempts, ends⟩ := repaired.ends rfl
    exact ⟨attempts, ends.after read.unclosed⟩
  | unpacked e read repaired plain => nomatch same
  | packed read repaired names => nomatch same

/-- What has been packed has passed. -/
theorem Worked.packed_passed (worked : Worked w t x) {bundle : DeliveryBundle} :
    x = .ok (some bundle) → Ends t (.bundleCreated bundle) ∧ ∀ earlier,
      ∃ before passing files, Passed w before passing ∧
        files.map Prod.fst = passing.candidate.paths ∧
        earlier ++ t = before ++ (readings passing.number files ++
          [⟨.package files passing.plan passing.results passing.number, .ok bundle⟩,
            ⟨.append (.bundleCreated bundle), ()⟩]) := by
  intro same
  cases worked with
  | unread read => nomatch same
  | raised read repaired => nomatch same
  | failed read repaired => nomatch same
  | unpacked e read repaired plain => nomatch same
  | @packed first second _ passing _ files read repaired names =>
    obtain rfl := (Option.some.inj (Except.ok.inj same)).symm
    constructor
    · have packs : Unclosed
          [⟨.package files passing.plan passing.results passing.number, .ok bundle⟩] :=
        List.forall_mem_nil _
      have ends := (@ends_of_closing (.bundleCreated bundle) rfl).after packs
      refine ((ends.after plain_readings.unclosed).after (repaired.unclosed ?_)).after read.unclosed
      intro same
      nomatch same
    · intro earlier
      refine ⟨_, passing, files, repaired.passed_last rfl (earlier ++ first) read.latest, names, ?_⟩
      simp only [List.append_assoc]

end Worked

/-! ## Every run -/

theorem unclosed_opening {prompt project : String} : Unclosed (opening w prompt project) := by
  intro event mem
  simp only [events, opening, event?, List.filterMap_cons, List.filterMap_nil, List.mem_cons,
    List.not_mem_nil, or_false] at mem
  obtain rfl | rfl | rfl := mem
  all_goals rfl

section Executed

variable {prompt : Str} {project : String} {x : Except Failure (Option DeliveryBundle)}
  {outcome : Except Failure (Option DeliveryBundle)}

theorem blocked_beside : texts (blocked outcome) = [] ∧ attempts (blocked outcome) = 0 ∧
    removals (blocked outcome) = [] := by
  cases outcome with
  | ok bundle => exact ⟨rfl, rfl, rfl⟩
  | error e =>
    cases e with
    | expected e => exact ⟨rfl, rfl, rfl⟩
    | index => exact ⟨rfl, rfl, rfl⟩

/-- The handler catches everything else. -/
theorem caught_isOk : (∃ bundle, caught outcome = .ok bundle) ↔ outcome ≠ .error .index := by
  cases outcome with
  | ok bundle => exact iff_of_true ⟨bundle, rfl⟩ (known (.ok bundle))
  | error e =>
    cases e with
    | expected e => exact iff_of_true ⟨none, rfl⟩ (known (.error e))
    | index =>
      refine iff_of_false ?_ fun other => other rfl
      rintro ⟨bundle, same⟩
      nomatch same

/-- A run returns unless its prompt cannot be encoded, a fence is broken or its folder cannot be
removed. -/
theorem Executed.returns (executed : Executed w prompt project t x) :
    (∃ bundle, x = .ok bundle) ↔
      (w.redactor.redact prompt).toString?.isSome ∧ ¬ Breaks t ∧ ∀ r ∈ removals t, r = .ok () := by
  cases executed with
  | @unprompted e bounded =>
    refine iff_of_false ?_ fun orderly => ?_
    · rintro ⟨bundle, same⟩
      nomatch same
    · obtain ⟨safe, done⟩ := boundText_isOk.mpr orderly.1
      rw [bounded] at done
      nomatch done
  | unrooted e bounded =>
    refine iff_of_true ⟨none, rfl⟩ ⟨boundText_isOk.mp ⟨_, bounded⟩, not_breaks rfl, ?_⟩
    intro r mem
    exact absurd mem List.not_mem_nil
  | @removed safe u outcome bounded worked =>
    have encodes := boundText_isOk.mp ⟨_, bounded⟩
    have ok : ∀ r ∈ removals (opening w safe.text project ++
        (u ++ (blocked outcome ++ [⟨.removeRunRoot, .ok ()⟩]))), r = .ok () := by
      simp only [removals_append, worked.removals, blocked_beside.2.2]
      exact List.forall_mem_cons.mpr ⟨rfl, List.forall_mem_nil _⟩
    have breaks : Breaks (opening w safe.text project ++
        (u ++ (blocked outcome ++ [⟨.removeRunRoot, .ok ()⟩]))) ↔ Breaks u := by
      rw [breaks_append, or_iff_right (not_breaks rfl), breaks_append, or_iff_left]
      refine not_breaks ?_
      rw [texts_append, blocked_beside.1]
      rfl
    rw [caught_isOk, breaks, and_iff_right encodes, and_iff_left ok]
    exact worked.index.not
  | @unremoved safe u outcome e bounded worked =>
    refine iff_of_false ?_ fun orderly => ?_
    · rintro ⟨bundle, same⟩
      nomatch same
    · have mem : .error e ∈ removals (opening w safe.text project ++
          (u ++ (blocked outcome ++ [⟨.removeRunRoot, .error e⟩]))) := by
        simp only [removals_append, worked.removals, blocked_beside.2.2]
        exact List.mem_cons_self
      nomatch orderly.2.2 _ mem

theorem Executed.attempts (executed : Executed w prompt project t x) :
    attempts t ≤ w.maxRepairAttempts.toNat + 1 := by
  cases executed with
  | unprompted bounded => exact Nat.zero_le _
  | unrooted e bounded => exact Nat.zero_le _
  | removed bounded worked =>
    simp only [attempts_append, blocked_beside.2.1]
    exact (Nat.zero_add _).trans_le worked.attempts
  | unremoved e bounded worked =>
    simp only [attempts_append, blocked_beside.2.1]
    exact (Nat.zero_add _).trans_le worked.attempts

/-- A run that returns ends with its only closing event, and has delivered what that says. -/
theorem Executed.ends (executed : Executed w prompt project t x) :
    (∃ bundle, x = .ok bundle) → ∃ last, Ends t last ∧ ∀ bundle, last = .bundleCreated bundle →
      ∃ before passing files, Passed w before passing ∧
        files.map Prod.fst = passing.candidate.paths ∧
        t = before ++ (readings passing.number files ++
          [⟨.package files passing.plan passing.results passing.number, .ok bundle⟩,
            ⟨.append (.bundleCreated bundle), ()⟩, ⟨.removeRunRoot, .ok ()⟩]) := by
  rintro ⟨bundle, same⟩
  cases executed with
  | unprompted bounded => nomatch same
  | unrooted e bounded =>
    refine ⟨_, (ends_of_closing rfl).after unclosed_opening, ?_⟩
    intro bundle other
    nomatch other
  | @removed safe u outcome bounded worked =>
    cases outcome with
    | error e =>
      cases e with
      | expected e =>
        have blocks : Ends [⟨.append (.runBlocked e.reason), ()⟩, ⟨.removeRunRoot, .ok ()⟩]
            (.runBlocked e.reason) := ⟨[], rfl, rfl, List.forall_mem_nil _⟩
        refine ⟨_, (blocks.after (worked.unclosed ⟨_, rfl⟩)).after unclosed_opening, ?_⟩
        intro bundle other
        nomatch other
      | index => nomatch same
    | ok left =>
      cases left with
      | none =>
        obtain ⟨attempts, ends⟩ := worked.failed_ends rfl
        refine ⟨_, (ends.before rfl).after unclosed_opening, ?_⟩
        intro bundle other
        nomatch other
      | some bundle =>
        obtain ⟨ends, passed⟩ := worked.packed_passed rfl
        refine ⟨_, (ends.before rfl).after unclosed_opening, ?_⟩
        intro other same
        obtain rfl := Event.bundleCreated.inj same
        obtain ⟨before, passing, files, passes, names, split⟩ :=
          passed (opening w safe.text project)
        refine ⟨before, passing, files, passes, names, ?_⟩
        rw [← List.append_assoc, split]
        simp only [blocked, List.nil_append, List.append_assoc, List.cons_append]
  | unremoved e bounded worked => nomatch same

end Executed

/-- A run is closed exactly when it goes on orderly. -/
theorem closed_iff_orderly {prompt : Str} {project : String}
    {x : Except Failure (Option DeliveryBundle)}
    (ran : Follows (execute w prompt project).run t (done x)) :
    Closed w t x ↔ Orderly w prompt t := by
  have executed := leaves_execute t x ran
  have returns := executed.returns
  have counted := executed.attempts
  have ends := executed.ends
  rw [removals_exchanged, Breaks, texts_exchanged] at returns
  rw [attempts_exchanged] at counted
  constructor
  · intro closed
    obtain ⟨encodes, fenced, removed⟩ := returns.mp closed.returns
    refine ⟨encodes, fenced, removed, ?_⟩
    have bounded := closed.bounded
    omega
  · intro orderly
    have back := returns.mpr ⟨orderly.encodes, orderly.fenced, orderly.removed⟩
    obtain ⟨last, closes, delivers⟩ := ends back
    rw [Ends, events_exchanged] at closes
    refine ⟨back, ?_, ⟨last, closes⟩, fun bundle mem => ?_⟩
    · have budget := orderly.budget
      omega
    · exact delivers bundle (Ends.is_last closes mem rfl).symm

/-! ## Two runs -/

namespace Sample

/-- Nothing is secret, and every text is its own digest. -/
def redactor : SecretRedactor where
  redact text := text
  sha256 text := text

theorem fits : [["pytest"]].length + ([] : List (List String)).length ≤ 24 := by decide

theorem valid : ∀ command ∈ [["pytest"]] ++ ([] : List (List String)),
    validateCommand 64 command = .ok () := by decide

def policy : VerificationPolicy where
  requiredCommands := [["pytest"]]
  smokeCommands := []
  maxCommands := 24
  maxArgumentsPerCommand := 64
  required_some := List.cons_ne_nil _ _
  valid := valid
  fits := fits

theorem distinct : ([("a.py", "")].map Prod.fst).Nodup := by decide

def package : CandidatePackage where
  files := [("a.py", "")]
  testCommands := []
  smokeCommand := none
  distinct := distinct

def candidateText : String := "\x7b\"files\":\x7b\"a.py\":\"\"\x7d\x7d"

/-- One text is a candidate with one empty file. -/
def workflow : CodingWorkflow where
  redactor := redactor
  validateJson text := if text = candidateText then .ok package else .error "Invalid JSON"
  verificationPolicy := policy
  maxRepairAttempts := 5
  sandboxName := "docker"
  maxOutputCharacters := 32000
  maxContextCharacters := 64000

def bundle : DeliveryBundle := ⟨"1", "digest", "/bundles/1", ["a.py"]⟩

/-- Everything succeeds, and the provider sends a text. -/
def answers (text : String) : (q : Port) → q.Answer
  | .append _ => ()
  | .collectProviderStream .. => .ok text
  | .run _ => .ok ⟨0, [], [], false⟩
  | .readBytes .. => .ok []
  | .package .. => .ok bundle
  | .makeStagingRoot | .makeRunRoot | .createSnapshot .. | .appendContextEnvelope ..
  | .appendExternalContent _ | .makeDirectory .. | .atomicWrite .. | .sandboxFactory | .start
  | .stage _ | .close | .removeRunRoot => .ok ()

/-- A run with one text of the provider. -/
def run (text : String) : Trace × Except Failure (Option DeliveryBundle) :=
  play (answers text) (execute workflow (Str.ofString "Build it") "/project").run

end Sample

/-- A candidate that passes is delivered. -/
theorem passing_closed : Closed Sample.workflow (Sample.run Sample.candidateText).1
    (Sample.run Sample.candidateText).2 := by
  refine (closed_iff_orderly (follows_play _ _)).mpr ⟨rfl, ?_, ?_, .inl (by decide)⟩
  · have one : texts (Sample.run Sample.candidateText).1 = [Sample.candidateText] := by
      decide +kernel
    rintro ⟨raw, mem, fenced, -⟩
    change raw ∈ texts (Sample.run Sample.candidateText).1 at mem
    rw [one, List.mem_singleton] at mem
    subst mem
    exact absurd fenced (by decide +kernel)
  · have removed : removals (Sample.run Sample.candidateText).1 = [.ok ()] := by decide +kernel
    intro r mem
    change r ∈ removals (Sample.run Sample.candidateText).1 at mem
    rw [removed] at mem
    exact List.mem_singleton.mp mem

/-- A provider text that is a fence and nothing else ends the run with an `IndexError`, and the
trace has no closing event. -/
theorem fence_alone : ¬ ∀ (w : CodingWorkflow) (prompt : Str) (project : String) (t : Trace)
    (x : Except Failure (Option DeliveryBundle)),
    Follows (execute w prompt project).run t (done x) → Closed w t x := by
  intro closes
  have closed := closes _ _ _ _ _ (follows_play (Sample.answers "```")
    (execute Sample.workflow (Str.ofString "Build it") "/project").run)
  obtain ⟨bundle, returned⟩ := closed.returns
  have raised : (Sample.run "```").2 = .error .index := by decide +kernel
  nomatch raised.symm.trans returned

end Corvus.Workflow
