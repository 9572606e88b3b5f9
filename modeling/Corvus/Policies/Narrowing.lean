import Corvus.Policies.Engine

/-!
# Narrowing a policy

The policy of a project can only narrow the one of the user: what the effective policy allows,
both allow, and its limits are at most theirs. Two things come in the way. A comparison with a
NaN never holds, so `min` of the limits on the CPU is no bound. And a pattern that cannot be
expanded makes an engine raise before it comes to the pattern that allows a path, although the
effective policy, which leaves such a pattern out, allows the path.
-/

namespace Corvus.Policies

variable {host : Host} {U P N policy : Policy} {action target : String} {parts : List String}
  {patterns a b : List String} {request : Request}

/-! ## The property -/

def Policy.Allows (host : Host) (policy : Policy) (request : Request) : Prop :=
  ∃ d, policy.answer host request = some d ∧ d.allowed = true

def Policy.AllowsUnconfirmed (host : Host) (policy : Policy) (request : Request) : Prop :=
  ∃ d, policy.answer host request = some d ∧ d.allowed = true ∧ d.requiresConfirmation = false

/-- A limit on tokens; none is no limit. -/
def TokensWithin (limit : Option Int) : Option Int → Prop
  | none => True
  | some bound => ∃ n, limit = some n ∧ n ≤ bound

/-- The budgets and the limits of the sandbox of one policy are at most those of another. -/
structure Within (N U : Policy) : Prop where
  cost : N.budgets.maxCostUsd ≤ U.budgets.maxCostUsd
  runtime : N.budgets.maxRuntimeSeconds ≤ U.budgets.maxRuntimeSeconds
  repairs : N.budgets.maxRepairAttempts ≤ U.budgets.maxRepairAttempts
  input : TokensWithin N.budgets.maxInputTokens U.budgets.maxInputTokens
  output : TokensWithin N.budgets.maxOutputTokens U.budgets.maxOutputTokens
  network : N.sandbox.networkDefault = true → U.sandbox.networkDefault = true
  cpu : Double.le N.sandbox.cpuLimit U.sandbox.cpuLimit = true
  memory : N.sandbox.memoryMb ≤ U.sandbox.memoryMb
  pids : N.sandbox.pidsLimit ≤ U.sandbox.pidsLimit

/-- A policy that only narrows those of the user and of a project. -/
structure OnlyNarrows (host : Host) (U P N : Policy) : Prop where
  allows : ∀ request, N.Allows host request → U.Allows host request ∧ P.Allows host request
  unconfirmed : ∀ request, N.AllowsUnconfirmed host request →
    U.AllowsUnconfirmed host request ∧ P.AllowsUnconfirmed host request
  limits : Within N U ∧ Within N P
  idempotent : narrow N P = N ∧ narrow N N = N
  symmetric : ∀ request, N.answer host request = (narrow P U).answer host request

/-! ## What comes in the way -/

def Matches (host : Host) (target pattern : String) : Prop :=
  ∃ expanded, host.expanduser pattern = some expanded ∧ fnmatch host target expanded = true

/-- A pattern that cannot be expanded comes before any that a target matches. -/
def Hindered (host : Host) (target : String) (patterns : List String) : Prop :=
  ∃ before pattern after, patterns = before ++ pattern :: after ∧
    host.expanduser pattern = none ∧ ∀ other ∈ before, ¬ Matches host target other

/-- A path comes to the patterns that allow: neither the rules for sensitive paths nor those that
deny stop it. -/
structure Reaches (host : Host) (deny parts : List String) : Prop where
  insensitive : ¬ parts.any fun part => decide (host.lower part ∈ HARD_DENY_PARTS)
  passes : ∀ pattern ∈ deny, ∃ expanded, host.expanduser pattern = some expanded ∧
    fnmatch host (asPosix parts) expanded = false

/-- Of the paths that match a pattern of both policies, none that is free of hindrances in one
order of the common patterns is hindered elsewhere. -/
def Unhindered (host : Host) (U P : Policy) (action : String) : Prop :=
  ∀ path parts, host.resolve path = some parts →
    Reaches host (U.filesystem.deny ++ P.filesystem.deny) parts →
    (∃ pattern ∈ common (U.allow action) (P.allow action),
      Matches host (asPosix parts) pattern) →
    ¬ Hindered host (asPosix parts) (common (U.allow action) (P.allow action)) ∨
      ¬ Hindered host (asPosix parts) (common (P.allow action) (U.allow action)) →
    ∀ patterns ∈ [U.allow action, P.allow action, common (U.allow action) (P.allow action),
      common (P.allow action) (U.allow action)], ¬ Hindered host (asPosix parts) patterns

/-! ## The first match -/

theorem firstMatch_eq_none : firstMatch host target patterns = none ↔
    Hindered host target patterns := by
  induction patterns with
  | nil =>
    refine ⟨nofun, ?_⟩
    rintro ⟨before, pattern, after, same, -⟩
    exact absurd same (by simp)
  | cons pattern patterns ih =>
    rw [firstMatch]
    cases expanded : host.expanduser pattern with
    | none => exact ⟨fun _ => ⟨[], pattern, patterns, rfl, expanded, by simp⟩, fun _ => rfl⟩
    | some e =>
      rw [Option.bind_eq_bind, Option.bind_some]
      by_cases found : fnmatch host target e = true
      · rw [if_pos found]
        refine ⟨nofun, ?_⟩
        rintro ⟨before, other, after, same, unknown, clear⟩
        cases before with
        | nil =>
          rw [(List.cons.inj same).1, unknown] at expanded
          exact nomatch expanded
        | cons first before =>
          refine absurd ⟨e, ?_, found⟩ (clear first List.mem_cons_self)
          rwa [← (List.cons.inj same).1]
      · rw [if_neg found, ih]
        constructor
        · rintro ⟨before, other, after, rfl, unknown, clear⟩
          refine ⟨pattern :: before, other, after, rfl, unknown, ?_⟩
          refine List.forall_mem_cons.mpr ⟨?_, clear⟩
          rintro ⟨e', expanded', found'⟩
          rw [Option.some.inj (expanded.symm.trans expanded')] at found
          exact found found'
        · rintro ⟨before, other, after, same, unknown, clear⟩
          cases before with
          | nil =>
            rw [(List.cons.inj same).1, unknown] at expanded
            exact nomatch expanded
          | cons first before =>
            exact ⟨before, other, after, (List.cons.inj same).2, unknown,
              fun other mem => clear other (List.mem_cons_of_mem _ mem)⟩

theorem firstMatch_eq_some_none : firstMatch host target patterns = some none ↔
    ∀ pattern ∈ patterns, ∃ expanded, host.expanduser pattern = some expanded ∧
      fnmatch host target expanded = false := by
  induction patterns with
  | nil => simp [firstMatch]
  | cons pattern patterns ih =>
    rw [firstMatch, List.forall_mem_cons, ← ih]
    cases expanded : host.expanduser pattern with
    | none => simp
    | some e =>
      rw [Option.bind_eq_bind, Option.bind_some]
      by_cases found : fnmatch host target e = true
      · simp [found]
      · simp [found]

theorem matches_of_firstMatch {pattern : String}
    (found : firstMatch host target patterns = some (some pattern)) :
    pattern ∈ patterns ∧ Matches host target pattern := by
  induction patterns with
  | nil => exact nomatch found
  | cons first patterns ih =>
    rw [firstMatch] at found
    obtain ⟨e, expanded, found⟩ := Option.bind_eq_some_iff.mp found
    by_cases holds : fnmatch host target e = true
    · rw [if_pos holds] at found
      obtain rfl := Option.some.inj (Option.some.inj found)
      exact ⟨List.mem_cons_self, e, expanded, holds⟩
    · rw [if_neg holds] at found
      exact ⟨List.mem_cons_of_mem _ (ih found).1, (ih found).2⟩

/-- There is a first match exactly if there is a match and nothing comes before it. -/
theorem exists_firstMatch : (∃ pattern, firstMatch host target patterns = some (some pattern)) ↔
    (∃ pattern ∈ patterns, Matches host target pattern) ∧ ¬ Hindered host target patterns := by
  constructor
  · rintro ⟨pattern, found⟩
    refine ⟨⟨pattern, matches_of_firstMatch found⟩, fun hindered => ?_⟩
    exact nomatch found.symm.trans (firstMatch_eq_none.mpr hindered)
  · rintro ⟨⟨pattern, mem, e, expanded, found⟩, clear⟩
    cases first : firstMatch host target patterns with
    | none => exact absurd (firstMatch_eq_none.mp first) clear
    | some result =>
      cases result with
      | some pattern => exact ⟨pattern, rfl⟩
      | none =>
        obtain ⟨e', expanded', unmatched⟩ := firstMatch_eq_some_none.mp first pattern mem
        rw [Option.some.inj (expanded.symm.trans expanded'), unmatched] at found
        exact nomatch found

/-! ## Lists and limits -/

section Lists

attribute [local simp] sortedSet common minimum

theorem mem_sortedSet {item : String} {items : List String} :
    item ∈ sortedSet items ↔ item ∈ items := by
  simp

theorem sortedSet_congr {items items' : List String} (same : ∀ item, item ∈ items ↔ item ∈ items') :
    sortedSet items = sortedSet items' := by
  have sets : items.toFinset = items'.toFinset := by
    ext item
    simpa using same item
  rw [sortedSet, sets, sortedSet]

theorem mem_common {item : String} : item ∈ common a b ↔ item ∈ a ∧ item ∈ b := by
  simp [and_comm]

theorem common_again : common (common a b) b = common a b := by
  refine List.filter_congr fun item mem => ?_
  simp [mem]

theorem common_self : common a a = a := by
  simp

theorem minimum_again {α : Type} {lt : α → α → Bool} {x y : α} :
    minimum lt (minimum lt x y) y = minimum lt x y := by
  by_cases less : lt y x = true
  · simp [less]
  · simp [less]

theorem minimum_self {α : Type} {lt : α → α → Bool} {x : α} : minimum lt x x = x := by
  simp

end Lists

theorem minimum_le {α : Type} [LinearOrder α] (x y : α) :
    minimum (· < ·) x y ≤ x ∧ minimum (· < ·) x y ≤ y := by
  by_cases less : y < x
  · simpa [minimum, less] using less.le
  · simpa [minimum, less] using not_lt.mp less

theorem minimum_double {x y : Double} (number : x ≠ none) (number' : y ≠ none) :
    Double.le (minimum Double.lt x y) x = true ∧ Double.le (minimum Double.lt x y) y = true := by
  obtain ⟨x, rfl⟩ := Option.ne_none_iff_exists'.mp number
  obtain ⟨y, rfl⟩ := Option.ne_none_iff_exists'.mp number'
  by_cases less : y < x
  · simpa [minimum, Double.lt, Double.le, less] using less.le
  · simpa [minimum, Double.lt, Double.le, less] using not_lt.mp less

theorem ne_none_of_le {x y : Double} (le : Double.le x y = true) : y ≠ none := by
  rintro rfl
  cases x <;> exact nomatch le

theorem minimumPresent_again {x y : Option Int} :
    minimumPresent (minimumPresent x y) y = minimumPresent x y := by
  cases x with
  | none => cases y <;> simp [minimumPresent, minimum_self]
  | some x => cases y <;> simp [minimumPresent, minimum_again]

theorem minimumPresent_self {x : Option Int} : minimumPresent x x = x := by
  cases x <;> simp [minimumPresent, minimum_self]

theorem minimumPresent_within (x y : Option Int) :
    TokensWithin (minimumPresent x y) x ∧ TokensWithin (minimumPresent x y) y := by
  cases x with
  | none =>
    cases y with
    | none => exact ⟨trivial, trivial⟩
    | some y => exact ⟨trivial, y, rfl, le_rfl⟩
  | some x =>
    cases y with
    | none => exact ⟨⟨x, rfl, le_rfl⟩, trivial⟩
    | some y => exact ⟨⟨_, rfl, (minimum_le x y).1⟩, _, rfl, (minimum_le x y).2⟩

theorem within_narrow (number : U.sandbox.cpuLimit ≠ none) (number' : P.sandbox.cpuLimit ≠ none) :
    Within (narrow U P) U ∧ Within (narrow U P) P := by
  have cpu := minimum_double number number'
  have network : (narrow U P).sandbox.networkDefault = true →
      U.sandbox.networkDefault = true ∧ P.sandbox.networkDefault = true :=
    fun both => Bool.and_eq_true_iff.mp both
  constructor
  · exact ⟨(minimum_le _ _).1, (minimum_le _ _).1, (minimum_le _ _).1,
      (minimumPresent_within _ _).1, (minimumPresent_within _ _).1, fun both => (network both).1,
      cpu.1, (minimum_le _ _).1, (minimum_le _ _).1⟩
  · exact ⟨(minimum_le _ _).2, (minimum_le _ _).2, (minimum_le _ _).2,
      (minimumPresent_within _ _).2, (minimumPresent_within _ _).2, fun both => (network both).2,
      cpu.2, (minimum_le _ _).2, (minimum_le _ _).2⟩

theorem narrow_again : narrow (narrow U P) P = narrow U P := by
  have deny (x y : List String) : sortedSet (sortedSet (x ++ y) ++ y) = sortedSet (x ++ y) :=
    sortedSet_congr fun item => by simp only [List.mem_append, mem_sortedSet]; tauto
  have network : (U.sandbox.networkDefault && P.sandbox.networkDefault &&
      P.sandbox.networkDefault) = (U.sandbox.networkDefault && P.sandbox.networkDefault) := by
    rw [Bool.and_assoc, Bool.and_self]
  simp only [narrow, minimum_again, common_again, minimumPresent_again, deny, network]

theorem narrow_self (N : Policy) (deny : sortedSet N.filesystem.deny = N.filesystem.deny)
    (confirm : sortedSet N.confirm = N.confirm) : narrow N N = N := by
  have twice (x : List String) : sortedSet (x ++ x) = sortedSet x :=
    sortedSet_congr fun item => by simp
  simp only [narrow, minimum_self, common_self, minimumPresent_self, twice, deny, confirm,
    Bool.and_self]

theorem sortedSet_sortedSet (items : List String) : sortedSet (sortedSet items) = sortedSet items :=
  sortedSet_congr fun _ => mem_sortedSet

/-! ## Decisions -/

theorem allow_narrow : (narrow U P).allow action = common (U.allow action) (P.allow action) := by
  by_cases write : action = "write"
  · simp only [Policy.allow, if_pos write, narrow]
  · simp only [Policy.allow, if_neg write, narrow]

theorem reaches_iff : Reaches host policy.filesystem.deny parts ↔
    (¬ parts.any fun part => decide (host.lower part ∈ HARD_DENY_PARTS)) ∧
      firstMatch host (asPosix parts) policy.filesystem.deny = some none :=
  ⟨fun reaches => ⟨reaches.insensitive, firstMatch_eq_some_none.mpr reaches.passes⟩,
    fun ⟨insensitive, passes⟩ => ⟨insensitive, firstMatch_eq_some_none.mp passes⟩⟩

/-- A path that comes to the patterns that allow. -/
theorem decidePath_of_reaches (reaches : Reaches host policy.filesystem.deny parts) :
    policy.decidePath host action parts =
      (firstMatch host (asPosix parts) (policy.allow action)).map fun found =>
        ⟨found.isSome, action,
          if found.isSome then "matched allow rule" else "no allow rule matched", "effective",
          action = "write"⟩ := by
  obtain ⟨insensitive, passes⟩ := reaches_iff.mp reaches
  rw [Policy.decidePath, if_neg insensitive, passes]
  cases found : firstMatch host (asPosix parts) (policy.allow action) with
  | none => rfl
  | some result => rfl

theorem decidePath_allowed :
    (∃ d, policy.decidePath host action parts = some d ∧ d.allowed = true) ↔
    Reaches host policy.filesystem.deny parts ∧
      ∃ pattern, firstMatch host (asPosix parts) (policy.allow action) = some (some pattern) := by
  constructor
  · rintro ⟨d, decided, allowed⟩
    have reaches : Reaches host policy.filesystem.deny parts := by
      rw [reaches_iff]
      by_cases sensitive : parts.any fun part => decide (host.lower part ∈ HARD_DENY_PARTS)
      · rw [Policy.decidePath, if_pos sensitive] at decided
        rw [← Option.some.inj decided] at allowed
        exact nomatch allowed
      · refine ⟨sensitive, ?_⟩
        rw [Policy.decidePath, if_neg sensitive] at decided
        obtain ⟨denied, first, decided⟩ := Option.bind_eq_some_iff.mp decided
        cases denied with
        | none => exact first
        | some pattern =>
          rw [← Option.some.inj decided] at allowed
          exact nomatch allowed
    refine ⟨reaches, ?_⟩
    rw [decidePath_of_reaches reaches] at decided
    obtain ⟨found, first, rfl⟩ := Option.map_eq_some_iff.mp decided
    obtain ⟨pattern, rfl⟩ := Option.isSome_iff_exists.mp allowed
    exact ⟨pattern, first⟩
  · rintro ⟨reaches, pattern, first⟩
    rw [decidePath_of_reaches reaches, first]
    exact ⟨_, rfl, rfl⟩

/-- The decision that allows a path. -/
theorem decidePath_confirms {d : PermissionDecision}
    (decided : policy.decidePath host action parts = some d) (allowed : d.allowed = true) :
    d.requiresConfirmation = decide (action = "write") := by
  have reaches := (decidePath_allowed.mp ⟨d, decided, allowed⟩).1
  rw [decidePath_of_reaches reaches] at decided
  obtain ⟨found, -, rfl⟩ := Option.map_eq_some_iff.mp decided
  rfl

theorem reaches_congr {deny deny' : List String} (same : ∀ item, item ∈ deny ↔ item ∈ deny') :
    Reaches host deny parts ↔ Reaches host deny' parts :=
  ⟨fun ⟨insensitive, passes⟩ => ⟨insensitive, fun p mem => passes p ((same p).mpr mem)⟩,
    fun ⟨insensitive, passes⟩ => ⟨insensitive, fun p mem => passes p ((same p).mp mem)⟩⟩

theorem reaches_narrow : Reaches host (narrow U P).filesystem.deny parts ↔
    Reaches host (U.filesystem.deny ++ P.filesystem.deny) parts :=
  reaches_congr fun _ => mem_sortedSet

theorem Reaches.both {deny deny' : List String} (reaches : Reaches host (deny ++ deny') parts) :
    Reaches host deny parts ∧ Reaches host deny' parts :=
  ⟨⟨reaches.insensitive, fun p mem => reaches.passes p (List.mem_append_left _ mem)⟩,
    ⟨reaches.insensitive, fun p mem => reaches.passes p (List.mem_append_right _ mem)⟩⟩

/-- A path that the effective policy allows is allowed by both. -/
theorem decidePath_narrow (clear : Unhindered host U P action) {path : String}
    (resolved : host.resolve path = some parts)
    (allowed : ∃ d, (narrow U P).decidePath host action parts = some d ∧ d.allowed = true) :
    (∃ d, U.decidePath host action parts = some d ∧ d.allowed = true) ∧
      ∃ d, P.decidePath host action parts = some d ∧ d.allowed = true := by
  obtain ⟨reaches, found⟩ := decidePath_allowed.mp allowed
  rw [allow_narrow] at found
  obtain ⟨⟨pattern, mem, holds⟩, free⟩ := exists_firstMatch.mp found
  have both := reaches_narrow.mp reaches
  have frees := clear path parts resolved both ⟨pattern, mem, holds⟩ (.inl free)
  obtain ⟨inU, inP⟩ := mem_common.mp mem
  constructor
  · exact decidePath_allowed.mpr ⟨both.both.1,
      exists_firstMatch.mpr ⟨⟨pattern, inU, holds⟩, frees _ (by simp)⟩⟩
  · exact decidePath_allowed.mpr ⟨both.both.2,
      exists_firstMatch.mpr ⟨⟨pattern, inP, holds⟩, frees _ (by simp)⟩⟩

theorem value_minimum (x y : AutonomyLevel) :
    (minimum (fun a b => decide (a.value < b.value)) x y).value = min x.value y.value := by
  by_cases less : y.value < x.value
  · simp [minimum, less, less.le]
  · simp [minimum, less, not_lt.mp less]

theorem value_narrow : (narrow U P).autonomy.value = min U.autonomy.value P.autonomy.value :=
  value_minimum _ _

theorem mem_confirm_narrow :
    action ∈ (narrow U P).confirm ↔ action ∈ U.confirm ∨ action ∈ P.confirm :=
  mem_sortedSet.trans List.mem_append

/-- What the effective policy allows on a level or a domain. -/
theorem narrow_domain {domain : String}
    (allowed : ((narrow U P).domain host domain).allowed = true) :
    (U.domain host domain).allowed = true ∧ (P.domain host domain).allowed = true := by
  obtain ⟨item, mem, holds⟩ := List.any_eq_true.mp allowed
  obtain ⟨inU, inP⟩ := mem_common.mp mem
  exact ⟨List.any_eq_true.mpr ⟨item, inU, holds⟩, List.any_eq_true.mpr ⟨item, inP, holds⟩⟩

/-- The answer on a path, once it is resolved. -/
theorem answer_path {path : String} {d : PermissionDecision} :
    policy.answer host (.path action path) = some d ↔
      ∃ parts, host.resolve path = some parts ∧ policy.decidePath host action parts = some d :=
  Option.bind_eq_some_iff

theorem allows_narrow (clear : ∀ action, Unhindered host U P action)
    (allowed : (narrow U P).Allows host request) :
    U.Allows host request ∧ P.Allows host request := by
  obtain ⟨d, answered, allowed⟩ := allowed
  cases request with
  | level action minimum =>
    obtain rfl := Option.some.inj answered
    have le : minimum.value ≤ min U.autonomy.value P.autonomy.value :=
      value_narrow ▸ of_decide_eq_true allowed
    obtain ⟨le, le'⟩ := le_min_iff.mp le
    exact ⟨⟨_, rfl, decide_eq_true le⟩, ⟨_, rfl, decide_eq_true le'⟩⟩
  | path action path =>
    obtain ⟨parts, resolved, decided⟩ := answer_path.mp answered
    obtain ⟨⟨u, decided, allowed⟩, ⟨p, decided', allowed'⟩⟩ :=
      decidePath_narrow (clear action) resolved ⟨d, decided, allowed⟩
    exact ⟨⟨u, answer_path.mpr ⟨parts, resolved, decided⟩, allowed⟩,
      ⟨p, answer_path.mpr ⟨parts, resolved, decided'⟩, allowed'⟩⟩
  | domain domain =>
    obtain rfl := Option.some.inj answered
    obtain ⟨allowed, allowed'⟩ := narrow_domain allowed
    exact ⟨⟨_, rfl, allowed⟩, ⟨_, rfl, allowed'⟩⟩

/-- Whether what is allowed needs a confirmation. -/
theorem confirms {d : PermissionDecision} (answered : policy.answer host request = some d)
    (allowed : d.allowed = true) :
    d.requiresConfirmation = match request with
      | .level action _ => decide (action ∈ policy.confirm) || decide (action ∈ IRREVERSIBLE)
      | .path action _ => decide (action = "write")
      | .domain _ => false := by
  cases request with
  | level action minimum =>
    obtain rfl := Option.some.inj answered
    rfl
  | path action path =>
    obtain ⟨parts, -, decided⟩ := answer_path.mp answered
    exact decidePath_confirms decided allowed
  | domain domain =>
    obtain rfl := Option.some.inj answered
    rfl

theorem unconfirmed_narrow (clear : ∀ action, Unhindered host U P action)
    (free : (narrow U P).AllowsUnconfirmed host request) :
    U.AllowsUnconfirmed host request ∧ P.AllowsUnconfirmed host request := by
  obtain ⟨d, answered, allowed, unconfirmed⟩ := free
  obtain ⟨⟨u, answeredU, allowedU⟩, ⟨p, answeredP, allowedP⟩⟩ :=
    allows_narrow clear ⟨d, answered, allowed⟩
  rw [confirms answered allowed] at unconfirmed
  refine ⟨⟨u, answeredU, allowedU, (confirms answeredU allowedU).trans ?_⟩,
    ⟨p, answeredP, allowedP, (confirms answeredP allowedP).trans ?_⟩⟩
  all_goals
    cases request with
    | level action minimum => simp_all [mem_confirm_narrow]
    | path action path => exact unconfirmed
    | domain domain => rfl

/-! ## The order of the policies -/

theorem narrow_deny_comm : (narrow U P).filesystem.deny = (narrow P U).filesystem.deny :=
  sortedSet_congr fun _ => by simp only [List.mem_append, or_comm]

theorem firstMatch_comm (clear : Unhindered host U P action) {path : String}
    (resolved : host.resolve path = some parts)
    (reaches : Reaches host (U.filesystem.deny ++ P.filesystem.deny) parts) :
    (firstMatch host (asPosix parts) (common (U.allow action) (P.allow action))).map
        Option.isSome =
      (firstMatch host (asPosix parts) (common (P.allow action) (U.allow action))).map
        Option.isSome := by
  have same (pattern) : pattern ∈ common (U.allow action) (P.allow action) ↔
      pattern ∈ common (P.allow action) (U.allow action) := by
    rw [mem_common, mem_common, and_comm]
  by_cases some_ : ∃ pattern ∈ common (U.allow action) (P.allow action),
      Matches host (asPosix parts) pattern
  · have some' : ∃ pattern ∈ common (P.allow action) (U.allow action),
        Matches host (asPosix parts) pattern := by
      obtain ⟨pattern, mem, holds⟩ := some_
      exact ⟨pattern, (same pattern).mp mem, holds⟩
    by_cases free : ¬ Hindered host (asPosix parts) (common (U.allow action) (P.allow action)) ∨
        ¬ Hindered host (asPosix parts) (common (P.allow action) (U.allow action))
    · have frees := clear path parts resolved reaches some_ free
      obtain ⟨pattern, first⟩ := exists_firstMatch.mpr ⟨some_, frees _ (by simp)⟩
      obtain ⟨pattern', first'⟩ := exists_firstMatch.mpr ⟨some', frees _ (by simp)⟩
      rw [first, first']
      rfl
    · obtain ⟨hindered, hindered'⟩ := not_or.mp free
      rw [firstMatch_eq_none.mpr (not_not.mp hindered),
        firstMatch_eq_none.mpr (not_not.mp hindered')]
  · have unmatched (list : List String) (sub : ∀ pattern ∈ list,
        pattern ∈ common (U.allow action) (P.allow action)) :
        firstMatch host (asPosix parts) list = none ∨
          firstMatch host (asPosix parts) list = some none := by
      cases first : firstMatch host (asPosix parts) list with
      | none => exact .inl rfl
      | some result =>
        cases result with
        | none => exact .inr rfl
        | some pattern =>
          obtain ⟨mem, holds⟩ := matches_of_firstMatch first
          exact absurd ⟨pattern, sub pattern mem, holds⟩ some_
    have transfer (x y : List String) (all : ∀ pattern, pattern ∈ y → pattern ∈ x)
        (none_ : firstMatch host (asPosix parts) x = some none) :
        firstMatch host (asPosix parts) y = some none :=
      firstMatch_eq_some_none.mpr fun pattern mem =>
        firstMatch_eq_some_none.mp none_ pattern (all pattern mem)
    obtain first | first := unmatched _ fun _ mem => mem
    · obtain second | second := unmatched (common (P.allow action) (U.allow action))
        fun pattern mem => (same pattern).mpr mem
      · rw [first, second]
      · exact nomatch first.symm.trans (transfer _ _ (fun p => (same p).mp) second)
    · rw [first, transfer _ _ (fun p => (same p).mpr) first]

theorem answer_comm (clear : ∀ action, Unhindered host U P action) (request : Request) :
    (narrow U P).answer host request = (narrow P U).answer host request := by
  cases request with
  | level action minimum =>
    have confirm : (narrow U P).confirm = (narrow P U).confirm :=
      sortedSet_congr fun _ => by simp only [List.mem_append, or_comm]
    have autonomy : (narrow U P).autonomy.value = (narrow P U).autonomy.value := by
      rw [value_narrow, value_narrow, min_comm]
    simp only [Policy.answer, Policy.requireLevel, autonomy, confirm]
  | path action path =>
    rw [Policy.answer, Policy.answer, Policy.path, Policy.path]
    cases resolved : host.resolve path with
    | none => rfl
    | some parts =>
      rw [Option.bind_some, Option.bind_some]
      by_cases reaches : Reaches host (narrow U P).filesystem.deny parts
      · have comm := firstMatch_comm (clear action) resolved (reaches_narrow.mp reaches)
        rw [decidePath_of_reaches reaches, decidePath_of_reaches (narrow_deny_comm ▸ reaches),
          allow_narrow, allow_narrow]
        have through (result : Option (Option String)) :
            (result.map fun found => (⟨found.isSome, action, if found.isSome then
              "matched allow rule" else "no allow rule matched", "effective",
              action = "write"⟩ : PermissionDecision)) =
            (result.map Option.isSome).map fun allowed => ⟨allowed, action, if allowed then
              "matched allow rule" else "no allow rule matched", "effective",
              action = "write"⟩ := by
          rw [Option.map_map]
          rfl
        rw [through, comm, ← through]
      · rw [Policy.decidePath, Policy.decidePath]
        by_cases sensitive : parts.any fun part => decide (host.lower part ∈ HARD_DENY_PARTS)
        · rw [if_pos sensitive, if_pos sensitive]
        · rw [if_neg sensitive, if_neg sensitive]
          cases first : firstMatch host (asPosix parts) (narrow U P).filesystem.deny with
          | none => rw [← narrow_deny_comm, first]; rfl
          | some denied =>
            cases denied with
            | some pattern => rw [← narrow_deny_comm, first]; rfl
            | none => exact absurd (reaches_iff.mpr ⟨sensitive, first⟩) reaches
  | domain domain =>
    have any (p : String → Bool) : (narrow U P).network.allowDomains.any p =
        (narrow P U).network.allowDomains.any p := by
      rw [Bool.eq_iff_iff, List.any_eq_true, List.any_eq_true]
      simp only [narrow, mem_common, and_comm]
    simp only [Policy.answer, Policy.domain, any]

/-! ## When a project only narrows -/

/-- A project only narrows exactly if both limits on the CPU are numbers and no pattern that cannot
be expanded comes in the way of one that both policies have. -/
theorem onlyNarrows_iff (host : Host) (user project : PolicyData) (some_ : project ≠ {}) :
    OnlyNarrows host user.modelValidate project.modelValidate (loadPolicy user project) ↔
      (user.modelValidate.sandbox.cpuLimit ≠ none ∧ project.modelValidate.sandbox.cpuLimit ≠ none) ∧
        ∀ action, Unhindered host user.modelValidate project.modelValidate action := by
  have effective : loadPolicy user project = narrow user.modelValidate project.modelValidate := by
    rw [loadPolicy, if_neg some_]
    by_cases none_ : user = {}
    · rw [if_pos none_, none_]
      rfl
    · rw [if_neg none_]
  rw [effective]
  generalize user.modelValidate = U, project.modelValidate = P
  constructor
  · intro narrows
    refine ⟨⟨ne_none_of_le narrows.limits.1.cpu, ne_none_of_le narrows.limits.2.cpu⟩, ?_⟩
    intro action path parts resolved reaches some_ free
    have some' : ∃ pattern ∈ common (P.allow action) (U.allow action),
        Matches host (asPosix parts) pattern := by
      obtain ⟨pattern, mem, holds⟩ := some_
      exact ⟨pattern, mem_common.mpr (mem_common.mp mem).symm, holds⟩
    have reaches' : Reaches host (P.filesystem.deny ++ U.filesystem.deny) parts :=
      (reaches_congr fun _ => by simp only [List.mem_append, or_comm]).mp reaches
    have clear {policy : Policy} (answered : policy.Allows host (.path action path)) :
        ¬ Hindered host (asPosix parts) (policy.allow action) := by
      obtain ⟨d, answered, allowed⟩ := answered
      obtain ⟨parts', resolved', decided⟩ := answer_path.mp answered
      obtain rfl := Option.some.inj (resolved.symm.trans resolved')
      exact (exists_firstMatch.mp (decidePath_allowed.mp ⟨d, decided, allowed⟩).2).2
    have allowed : (narrow U P).Allows host (.path action path) := by
      obtain free | free := free
      · obtain ⟨d, decided, allowed⟩ := decidePath_allowed.mpr
          ⟨reaches_narrow.mpr reaches, allow_narrow (U := U) ▸ exists_firstMatch.mpr ⟨some_, free⟩⟩
        exact ⟨d, answer_path.mpr ⟨parts, resolved, decided⟩, allowed⟩
      · obtain ⟨d, decided, allowed⟩ := decidePath_allowed.mpr
          ⟨reaches_narrow.mpr reaches', allow_narrow (U := P) ▸ exists_firstMatch.mpr ⟨some', free⟩⟩
        refine ⟨d, (narrows.symmetric _).trans ?_, allowed⟩
        exact answer_path.mpr ⟨parts, resolved, decided⟩
    have allowed' : (narrow P U).Allows host (.path action path) := by
      obtain ⟨d, answered, allowed⟩ := allowed
      exact ⟨d, (narrows.symmetric _).symm.trans answered, allowed⟩
    obtain ⟨allowedU, allowedP⟩ := narrows.allows _ allowed
    simp only [List.forall_mem_cons, List.not_mem_nil, false_imp_iff, implies_true, and_true]
    exact ⟨clear allowedU, clear allowedP, allow_narrow (U := U) ▸ clear allowed,
      allow_narrow (U := P) ▸ clear allowed'⟩
  · rintro ⟨⟨number, number'⟩, clear⟩
    exact {
      allows := fun request allowed => allows_narrow clear allowed
      unconfirmed := fun request free => unconfirmed_narrow clear free
      limits := within_narrow number number'
      idempotent :=
        ⟨narrow_again, narrow_self _ (sortedSet_sortedSet _) (sortedSet_sortedSet _)⟩
      symmetric := answer_comm clear }

namespace Sample

/-- A machine on which no user but the current one is known. -/
def machine : Host where
  normcase := id
  lower := fun s => String.ofList (Text.lower s.toList)
  expanduser := fun pattern =>
    if pattern.toList.head? ≠ some '~' then some pattern
    else if pattern = "~/work/*" then some "/home/me/work/*"
    else none
  resolve := fun path => some ("/" :: Snapshot.pathParts path)

/-- A project that may read less than its user. -/
def project : PolicyData := { filesystem := some { read := ["~/work/*"] } }

/-- A user who lets the files of a guest be read as well. -/
def user : PolicyData := { filesystem := some { read := ["~guest/*", "~/work/*"] } }

end Sample

/-- The project is allowed to read a file that its user is not. -/
theorem unknown_guest : ¬ OnlyNarrows Sample.machine Sample.user.modelValidate
    Sample.project.modelValidate (loadPolicy Sample.user Sample.project) := by
  intro narrows
  have allowed : (((loadPolicy Sample.user Sample.project).answer Sample.machine
      (.path "read" "/home/me/work/a")).map (·.allowed)) = some true := by decide +kernel
  have raises : Sample.user.modelValidate.answer Sample.machine
      (.path "read" "/home/me/work/a") = none := by decide
  obtain ⟨d, answered, allowed⟩ := Option.map_eq_some_iff.mp allowed
  obtain ⟨⟨d, answered', -⟩, -⟩ := narrows.allows _ ⟨d, answered, allowed⟩
  exact nomatch raises.symm.trans answered'

/-- The same user, and a project that reads nothing. -/
theorem narrows_without_files :
    ({ confirm := some [] } : PolicyData) ≠ {} ∧
      OnlyNarrows Sample.machine Sample.user.modelValidate
        ({ confirm := some [] } : PolicyData).modelValidate
        (loadPolicy Sample.user { confirm := some [] }) := by
  refine ⟨by decide, (onlyNarrows_iff _ _ _ (by decide)).mpr ⟨⟨by decide, by decide⟩, ?_⟩⟩
  rintro action path parts - - ⟨pattern, mem, -⟩
  have none_ : ({ confirm := some [] } : PolicyData).modelValidate.allow action = [] :=
    ite_self _
  rw [none_] at mem
  exact absurd mem List.not_mem_nil

end Corvus.Policies
