import Corvus.Library.Lossy
import Corvus.Library.Masking

/-!
# Diagnostics of the sidecar

What the desktop keeps of the error output of its sidecar, and what it shows of it. The buffer
keeps the end of the output, the text is decoded whatever the bytes are, control characters are
left out, and the values of the three secret variables are replaced. A secret is shown where the
buffer begins behind the first character of its variable's name, and where leaving out control
characters puts it together.
-/

namespace Corvus.Desktop

/-! ## Secrets -/

/-- A digit of `{byte:02x}`. -/
def hexDigit (n : Nat) : Char := if n < 10 then Char.ofNat (n + 48) else Char.ofNat (n + 87)

/-- `random_secret`, of the bytes that the generator has filled in. -/
def randomSecret (value : List UInt8) : List Char :=
  value.flatMap fun byte => [hexDigit (byte.toNat / 16), hexDigit (byte.toNat % 16)]

/-- The random bytes of the three secrets of a launch. -/
structure Launch where
  pairing : List UInt8
  session : List UInt8
  instance_ : List UInt8
  pairing_length : pairing.length = 32
  session_length : session.length = 48
  instance_length : instance_.length = 32

def Launch.secrets (launch : Launch) : List (List Char) :=
  [randomSecret launch.pairing, randomSecret launch.session, randomSecret launch.instance_]

/-! ## The buffer -/

@[irreducible]
def MAX_DIAGNOSTIC_BYTES : Nat := 16 * 1024

/-- One round of `capture_bounded_stderr`. -/
def capture (destination chunk : List UInt8) : List UInt8 :=
  (destination ++ chunk).drop ((destination ++ chunk).length - MAX_DIAGNOSTIC_BYTES)

/-- `capture_bounded_stderr`, which ends at an empty read. -/
def captureBoundedStderr : List UInt8 → List (List UInt8) → List UInt8
  | buffer, [] => buffer
  | buffer, [] :: _ => buffer
  | buffer, (b :: chunk) :: chunks => captureBoundedStderr (capture buffer (b :: chunk)) chunks

/-! ## The text -/

/-- `char::is_control`. -/
def isControl (c : Char) : Bool := c.toNat < 0x20 || (0x7F ≤ c.toNat && c.toNat ≤ 0x9F)

/-- `char::is_whitespace`. -/
def isWhitespace (c : Char) : Bool :=
  let n := c.toNat
  (9 ≤ n && n ≤ 13) || n == 32 || n == 0x85 || n == 0xA0 || n == 0x1680 ||
    (0x2000 ≤ n && n ≤ 0x200A) || n == 0x2028 || n == 0x2029 || n == 0x202F || n == 0x205F ||
    n == 0x3000

/-- The characters that are not filtered out. -/
def isShown (c : Char) : Bool := !isControl c || c == '\n' || c == '\t'

/-- The names of the secret variables, as they are searched for. -/
def names : List (List Char) :=
  ["CORVUS_BOOTSTRAP_TOKEN=".toList, "CORVUS_SESSION_SECRET=".toList,
    "CORVUS_INSTANCE_TOKEN=".toList]

def redacted : List Char := "[REDACTED]".toList

/-- `redact_assignment`. -/
def redactAssignment (value name : List Char) : List Char :=
  Masking.maskName isWhitespace name redacted value

/-- `str::trim`. -/
def trim (value : List Char) : List Char :=
  ((value.dropWhile isWhitespace).reverse.dropWhile isWhitespace).reverse

/-- `sanitize_diagnostics`. -/
def sanitizeDiagnostics (raw : List Char) : List Char :=
  let value := names.foldl redactAssignment (raw.filter isShown)
  trim (((value.filter (· ≠ '\r')).flatMap fun c => if c = '\n' then ['\\', 'n'] else [c]).flatMap
    fun c => if c = '\t' then [' '] else [c])

/-- What `with_diagnostics` appends to an error. -/
def diagnosticsText (buffer : List UInt8) : List Char :=
  let diagnostics := sanitizeDiagnostics (Lossy.decode buffer)
  if diagnostics = [] then [] else ";sidecar_stderr=".toList ++ diagnostics

/-! ## The property -/

/-- How the reads of `capture_bounded_stderr` may cut a stream. -/
structure Cuts (stream : List UInt8) (reads : List (List UInt8)) : Prop where
  flatten : reads.flatten = stream
  sizes : ∀ chunk ∈ reads, chunk ≠ [] ∧ chunk.length ≤ 1024

/-- A secret occurs only as the value of an assignment to a secret variable. -/
def AssignedOnly (stream : List UInt8) (secret : List Char) : Prop :=
  ∀ a b, stream = a ++ Lossy.ascii secret ++ b →
    (∃ name ∈ names, Lossy.ascii name <:+ a) ∧ ∀ c ∈ (Lossy.decode b).head?, isWhitespace c = true

/-- However a stream is cut, the text is the same, and no secret is in it. -/
def Discreet (launch : Launch) (stream : List UInt8) : Prop :=
  ∀ reads, Cuts stream reads →
    (∀ secret ∈ launch.secrets, ¬ secret <:+: diagnosticsText (captureBoundedStderr [] reads)) ∧
      ∀ reads', Cuts stream reads' → diagnosticsText (captureBoundedStderr [] reads') =
        diagnosticsText (captureBoundedStderr [] reads)

/-- The part of a stream that is kept. -/
def tail (stream : List UInt8) : List UInt8 := stream.drop (stream.length - MAX_DIAGNOSTIC_BYTES)

/-- The kept part begins inside a name, or behind it, and then has the secret. -/
def CutName (stream : List UInt8) (secret : List Char) : Prop :=
  ∃ name ∈ names, ∃ u rest, u <:+ name ∧ u ≠ name ∧
    tail stream = Lossy.ascii u ++ Lossy.ascii secret ++ rest

/-- Control characters in the kept part are all that keeps a secret apart, which stands behind no
name in its word once they are left out. -/
def Joined (stream : List UInt8) (secret : List Char) : Prop :=
  ∃ x z y, Lossy.decode (tail stream) = x ++ z ++ y ∧ z.filter isShown = secret ∧
    ¬ secret <:+: z ∧ Masking.Uncovered isWhitespace names (x.filter isShown)

/-! ## The buffer keeps the end -/

variable {stream : List UInt8} {reads : List (List UInt8)} {launch : Launch} {secret : List Char}

/-- What is captured. -/
theorem capture_eq (stream chunk : List UInt8) :
    capture (tail stream) chunk = tail (stream ++ chunk) := by
  rw [capture, tail, tail]
  generalize MAX_DIAGNOSTIC_BYTES = m
  rw [← List.drop_append_of_le_length (Nat.sub_le _ _), List.drop_drop]
  refine congrArg (List.drop · _) ?_
  simp only [List.length_append, List.length_drop]
  omega

theorem captureBoundedStderr_cons (buffer : List UInt8) {chunk : List UInt8} (some_ : chunk ≠ []) :
    captureBoundedStderr buffer (chunk :: reads) =
      captureBoundedStderr (capture buffer chunk) reads := by
  obtain ⟨b, chunk, rfl⟩ := List.exists_cons_of_ne_nil some_
  rfl

theorem captureBoundedStderr_eq (sizes : ∀ chunk ∈ reads, chunk ≠ []) :
    captureBoundedStderr (tail stream) reads = tail (stream ++ reads.flatten) := by
  induction reads generalizing stream with
  | nil =>
    rw [List.flatten_nil, List.append_nil]
    rfl
  | cons chunk reads ih =>
    obtain ⟨some_, sizes⟩ := List.forall_mem_cons.mp sizes
    rw [captureBoundedStderr_cons _ some_, capture_eq, ih sizes, List.flatten_cons,
      List.append_assoc]

theorem Cuts.captured (cuts : Cuts stream reads) : captureBoundedStderr [] reads = tail stream := by
  have start : tail [] = [] := by rw [tail, List.drop_nil]
  rw [← start, captureBoundedStderr_eq fun chunk mem => (cuts.sizes chunk mem).1, cuts.flatten,
    List.nil_append]

/-- Reads of one byte. -/
theorem cuts_singles (stream : List UInt8) : Cuts stream (stream.map fun b => [b]) := by
  refine ⟨by rw [← List.flatMap_def, List.flatMap_singleton'], fun chunk mem => ?_⟩
  obtain ⟨b, -, rfl⟩ := List.mem_map.mp mem
  exact ⟨List.cons_ne_nil b [], (by decide : 1 ≤ 1024)⟩

/-! ## Secrets and names -/

/-- The digits of a secret. -/
def isHex (c : Char) : Bool :=
  (48 ≤ c.toNat && c.toNat ≤ 57) || (97 ≤ c.toNat && c.toNat ≤ 102)

theorem isHex_hexDigit : ∀ n < 16, isHex (hexDigit n) = true := by decide

theorem solid_secret (mem : secret ∈ launch.secrets) : Masking.Solid isHex secret := by
  have solid (value : List UInt8) (size : value.length ≠ 0) :
      Masking.Solid isHex (randomSecret value) := by
    constructor
    · intro none_
      have first := List.flatMap_eq_nil_iff.mp none_
      obtain ⟨b, rest, rfl⟩ := List.exists_cons_of_length_pos (Nat.pos_of_ne_zero size)
      exact absurd (first b List.mem_cons_self) (by simp)
    · intro c mem
      obtain ⟨b, -, mem⟩ := List.mem_flatMap.mp mem
      have bound := b.toNat_lt
      simp only [List.mem_cons, List.not_mem_nil, or_false] at mem
      obtain rfl | rfl := mem
      · exact isHex_hexDigit _ (by omega)
      · exact isHex_hexDigit _ (by omega)
  simp only [Launch.secrets, List.mem_cons, List.not_mem_nil, or_false] at mem
  obtain rfl | rfl | rfl := mem
  · exact solid _ (by simp [launch.pairing_length])
  · exact solid _ (by simp [launch.session_length])
  · exact solid _ (by simp [launch.instance_length])

theorem length_secret (mem : secret ∈ launch.secrets) : 64 ≤ secret.length := by
  have size (value : List UInt8) : (randomSecret value).length = 2 * value.length := by
    simp [randomSecret, List.length_flatMap, mul_comm]
  simp only [Launch.secrets, List.mem_cons, List.not_mem_nil, or_false] at mem
  obtain rfl | rfl | rfl := mem
  · simp [size, launch.pairing_length]
  · simp [size, launch.session_length]
  · simp [size, launch.instance_length]

theorem small_of_isHex {c : Char} (hex : isHex c = true) : c.toNat < 0x80 := by
  simp only [isHex, Bool.or_eq_true, Bool.and_eq_true, decide_eq_true_eq] at hex
  omega

theorem shown_of_isHex {c : Char} (hex : isHex c = true) : isShown c = true := by
  have large : isControl c = false := by
    simp only [isHex, Bool.or_eq_true, Bool.and_eq_true, decide_eq_true_eq] at hex
    simp only [isControl, Bool.or_eq_false_iff, Bool.and_eq_false_iff, decide_eq_false_iff_not]
    omega
  rw [isShown, large]
  rfl

theorem not_isHex_of_isWhitespace {c : Char} (space : isWhitespace c = true) :
    isHex c = false := by
  by_contra hex
  rw [Bool.not_eq_false] at hex
  simp only [isHex, Bool.or_eq_true, Bool.and_eq_true, decide_eq_true_eq] at hex
  simp only [isWhitespace, Bool.or_eq_true, Bool.and_eq_true, decide_eq_true_eq,
    beq_iff_eq] at space
  omega

/-- A character that the names and the redaction are made of. -/
def isPlain (c : Char) : Bool :=
  decide (c.toNat < 0x80) && (isShown c && (!isHex c && !isWhitespace c))

/-- The names and the redaction are plain, and nothing of a name but its whole has a name in it. -/
theorem names_checked :
    (names.all fun name => !name.isEmpty && (name.all isPlain &&
      names.all fun other => !decide (other <:+: name.tail))) = true ∧
    redacted.all isPlain = true := by
  decide +kernel

theorem isPlain_iff {c : Char} : isPlain c = true ↔
    (c.toNat < 0x80 ∧ isShown c = true) ∧ isHex c = false ∧ isWhitespace c = false := by
  simp [isPlain, and_assoc]

theorem checked {name : List Char} (mem : name ∈ names) :
    name ≠ [] ∧ (∀ c ∈ name, isPlain c = true) ∧ ∀ other ∈ names, ¬ other <:+: name.tail := by
  have each := List.all_eq_true.mp names_checked.1 name mem
  simp only [Bool.and_eq_true, List.all_eq_true] at each
  obtain ⟨some_, plain, apart⟩ := each
  exact ⟨by simpa using some_, plain, fun other mem' => by simpa using apart other mem'⟩

theorem small_names : ∀ name ∈ names, ∀ c ∈ name, c.toNat < 0x80 ∧ isShown c = true :=
  fun _ mem c inside => (isPlain_iff.mp ((checked mem).2.1 c inside)).1

theorem plain_redacted : ∀ c ∈ redacted, isPlain c = true := List.all_eq_true.mp names_checked.2

theorem plain_names : Masking.Plain isWhitespace isHex redacted names where
  solid := by
    intro name mem
    refine ⟨(checked mem).1, fun c inside => ?_⟩
    rw [(isPlain_iff.mp ((checked mem).2.1 c inside)).2.2]
    rfl
  names := fun _ mem c inside => (isPlain_iff.mp ((checked mem).2.1 c inside)).2.1
  mask := fun c inside => (isPlain_iff.mp (plain_redacted c inside)).2
  spaces := fun _ => not_isHex_of_isWhitespace

/-! ## What the text shows -/

theorem infix_trim (solid : Masking.Solid isHex secret) (value : List Char) :
    secret <:+: trim value ↔ secret <:+: value := by
  have back : Masking.Solid isHex secret.reverse :=
    ⟨fun none_ => solid.some (List.reverse_eq_nil_iff.mp none_),
      fun c mem => solid.kind c (List.mem_reverse.mp mem)⟩
  have spaces (c : Char) : isWhitespace c = true → isHex c = false := not_isHex_of_isWhitespace
  rw [trim, ← List.reverse_infix, List.reverse_reverse, back.infix_dropWhile spaces,
    List.reverse_infix, solid.infix_dropWhile spaces]

/-- Only the redaction matters for a secret: no carriage return is left for it to join across, and
the other replacements and the spaces at the ends do not touch it. -/
theorem infix_sanitizeDiagnostics (solid : Masking.Solid isHex secret) (raw : List Char) :
    secret <:+: sanitizeDiagnostics raw ↔
      secret <:+: Masking.maskNames isWhitespace redacted names (raw.filter isShown) := by
  have value : names.foldl redactAssignment (raw.filter isShown) =
      Masking.maskNames isWhitespace redacted names (raw.filter isShown) := rfl
  have returns : ∀ c ∈ Masking.maskNames isWhitespace redacted names (raw.filter isShown),
      decide (c ≠ '\r') = true := by
    have other (c : Char) (shown : isShown c = true) : decide (c ≠ '\r') = true := by
      refine decide_eq_true ?_
      rintro rfl
      exact absurd shown (by decide)
    refine plain_names.forall_maskNames ?_ ?_ fun c mem => other c (List.mem_filter.mp mem).2
    · exact fun name mem c inside => other c (small_names name mem c inside).2
    · exact fun c inside => other c (isPlain_iff.mp (plain_redacted c inside)).1.2
  rw [sanitizeDiagnostics, value, infix_trim solid, solid.infix_flatMap, solid.infix_flatMap,
    List.filter_eq_self.mpr returns]
  · intro c hex
    rw [if_neg]
    rintro rfl
    exact absurd hex (by decide)
  · intro c other
    by_cases line : c = '\n'
    · exact ⟨'\\', ['n'], if_pos line,
        List.forall_mem_cons.mpr ⟨rfl, List.forall_mem_singleton.mpr rfl⟩⟩
    · exact ⟨c, [], if_neg line, by simpa using other⟩
  · intro c hex
    rw [if_neg]
    rintro rfl
    exact absurd hex (by decide)
  · intro c other
    by_cases tab : c = '\t'
    · exact ⟨' ', [], if_pos tab, List.forall_mem_singleton.mpr rfl⟩
    · exact ⟨c, [], if_neg tab, by simpa using other⟩

/-- A secret is shown exactly where it stands behind no name in its word. -/
theorem infix_diagnosticsText (mem : secret ∈ launch.secrets) (buffer : List UInt8) :
    secret <:+: diagnosticsText buffer ↔
      ∃ x y, (Lossy.decode buffer).filter isShown = x ++ secret ++ y ∧
        Masking.Uncovered isWhitespace names x := by
  have solid := solid_secret mem
  rw [← plain_names.infix_maskNames solid, ← infix_sanitizeDiagnostics solid, diagnosticsText]
  by_cases none_ : sanitizeDiagnostics (Lossy.decode buffer) = []
  · rw [if_pos none_, none_]
  · rw [if_neg none_]
    have label : ";sidecar_stderr=".toList = ";sidecar_stderr".toList ++ ['='] := rfl
    rw [label, List.append_assoc, List.singleton_append,
      solid.infix_append_cons (show isHex '=' = false from rfl)]
    refine or_iff_right fun inside => ?_
    have le := inside.length_le.trans' (length_secret mem)
    exact absurd le (by decide)

/-! ## When secrets are shown -/

theorem filter_shown {w : List Char} (shown : ∀ c ∈ w, isShown c = true) : w.filter isShown = w :=
  List.filter_eq_self.mpr shown

/-- A secret that is kept in one piece. -/
theorem cutName_of_decode (solid : Masking.Solid isHex secret)
    (assigned : AssignedOnly stream secret) {x y : List Char}
    (whole : Lossy.decode (tail stream) = x ++ secret ++ y)
    (uncovered : Masking.Uncovered isWhitespace names (x.filter isShown)) :
    CutName stream secret := by
  obtain ⟨a, b, split, rfl, -⟩ := Lossy.decode_eq_append solid.some
    (fun c mem => small_of_isHex (solid.kind c mem)) whole
  have all : stream = stream.take (stream.length - MAX_DIAGNOSTIC_BYTES) ++ a ++
      Lossy.ascii secret ++ b := by
    rw [List.append_assoc, List.append_assoc, ← List.append_assoc a, ← split, tail,
      List.take_append_drop]
  obtain ⟨⟨name, mem, named⟩, -⟩ := assigned _ b all
  have small := small_names name mem
  -- the name would cover the secret if all of it were kept
  have cut : ¬ Lossy.ascii name <:+ a := by
    rintro ⟨a, rfl⟩
    have some_ : name ≠ [] := (plain_names.solid name mem).some
    have before := Lossy.decode_append_ascii (a := a) (s := []) some_ fun c mem => (small c mem).1
    rw [List.append_nil] at before
    have covered := uncovered name mem ((Lossy.decode a).filter isShown) [] (by
      rw [before, List.filter_append, List.filter_append, filter_shown fun c mem => (small c mem).2]
      rfl)
    obtain ⟨c, none_, -⟩ := covered
    exact absurd none_ List.not_mem_nil
  obtain suffix | suffix := List.suffix_or_suffix_of_suffix named (List.suffix_append _ a)
  · exact absurd suffix cut
  · obtain ⟨u, inside, rfl⟩ := List.suffix_map_iff.mp suffix
    refine ⟨name, mem, u, b, inside, ?_, split⟩
    rintro rfl
    exact cut (List.suffix_refl _)

theorem shown_iff (solid : Masking.Solid isHex secret) (assigned : AssignedOnly stream secret) :
    (∃ x y, (Lossy.decode (tail stream)).filter isShown = x ++ secret ++ y ∧
      Masking.Uncovered isWhitespace names x) ↔ CutName stream secret ∨ Joined stream secret := by
  have shown : secret.filter isShown = secret :=
    filter_shown fun c mem => shown_of_isHex (solid.kind c mem)
  constructor
  · rintro ⟨x, y, split, uncovered⟩
    obtain ⟨front, back, whole, front_, rfl⟩ := List.filter_eq_append_iff.mp split
    obtain ⟨d, z, rfl, rfl, kept⟩ := List.filter_eq_append_iff.mp front_
    by_cases inside : secret <:+: z
    · obtain ⟨z₁, z₂, rfl⟩ := inside
      have none_ : z₁.filter isShown = [] := by
        have size := congrArg List.length kept
        simp only [List.filter_append, List.length_append, shown] at size
        exact List.length_eq_zero_iff.mp (by omega)
      refine .inl (cutName_of_decode solid assigned (x := d ++ z₁) (y := z₂ ++ back) ?_ ?_)
      · rw [whole]
        simp only [List.append_assoc]
      · rwa [List.filter_append, none_, List.append_nil]
    · exact .inr ⟨d, z, back, whole, kept, inside, uncovered⟩
  · rintro (⟨name, mem, u, rest, inside, proper, split⟩ | ⟨x, z, y, split, kept, -, uncovered⟩)
    · have small : ∀ c ∈ u ++ secret, c.toNat < 0x80 := by
        intro c mem'
        obtain mem' | mem' := List.mem_append.mp mem'
        · exact (small_names name mem c (inside.subset mem')).1
        · exact small_of_isHex (solid.kind c mem')
      have decoded : Lossy.decode (tail stream) = u ++ secret ++ Lossy.decode rest := by
        rw [split, ← Lossy.decode_ascii_append small, Lossy.ascii, Lossy.ascii, Lossy.ascii,
          List.map_append]
      refine ⟨u, (Lossy.decode rest).filter isShown, ?_, fun other mem' a b same => ?_⟩
      · rw [decoded, List.filter_append, List.filter_append, shown,
          filter_shown fun c mem' => (small_names name mem c (inside.subset mem')).2]
      · refine absurd ?_ ((checked mem).2.2 other mem')
        have within : u <:+ name.tail := by
          obtain ⟨t, rfl⟩ := inside
          cases t with
          | nil => exact absurd rfl proper
          | cons c t => exact ⟨t, rfl⟩
        exact List.IsInfix.trans ⟨a, b, same.symm⟩ within.isInfix
    · exact ⟨x.filter isShown, y.filter isShown, by
        rw [split, List.filter_append, List.filter_append, kept], uncovered⟩

/-- Secrets that are only assigned stay hidden, however the stream is cut, exactly if the kept part
does not begin within an assignment and no secret is put together by leaving out characters. -/
theorem discreet_iff (launch : Launch) (stream : List UInt8)
    (assigned : ∀ secret ∈ launch.secrets, AssignedOnly stream secret) :
    Discreet launch stream ↔
      ∀ secret ∈ launch.secrets, ¬ CutName stream secret ∧ ¬ Joined stream secret := by
  have shows (secret) (mem : secret ∈ launch.secrets) :
      secret <:+: diagnosticsText (tail stream) ↔ CutName stream secret ∨ Joined stream secret := by
    rw [infix_diagnosticsText mem, shown_iff (solid_secret mem) (assigned secret mem)]
  constructor
  · intro discreet secret mem
    have hidden := (discreet _ (cuts_singles stream)).1 secret mem
    rwa [(cuts_singles stream).captured, shows secret mem, not_or] at hidden
  · intro holds reads cuts
    refine ⟨fun secret mem => ?_, fun reads' cuts' => by rw [cuts.captured, cuts'.captured]⟩
    rw [cuts.captured, shows secret mem, not_or]
    exact holds secret mem

namespace Sample

def launched : Launch where
  pairing := List.replicate 32 0xAA
  session := List.replicate 48 0xBB
  instance_ := List.replicate 32 0xCC
  pairing_length := List.length_replicate
  session_length := List.length_replicate
  instance_length := List.length_replicate

def variable_ : List Char := "CORVUS_BOOTSTRAP_TOKEN=".toList

/-- The pairing secret is assigned, and a message follows. -/
def output (n : Nat) : List UInt8 :=
  Lossy.ascii variable_ ++ (Lossy.ascii (randomSecret launched.pairing) ++
    32 :: List.replicate n 120)

end Sample

/-- The name with its sign, and the secret. -/
theorem sample_sizes :
    (Lossy.ascii Sample.variable_).length = 23 ∧
    (Lossy.ascii (randomSecret Sample.launched.pairing)).length = 64 ∧
    Lossy.ascii Sample.variable_ = (Lossy.ascii Sample.variable_).dropLast ++ [61] := by
  decide +kernel

/-- The one place of the sample where a secret can be. -/
theorem assigned_output (n : Nat) :
    ∀ secret ∈ Sample.launched.secrets, AssignedOnly (Sample.output n) secret := by
  intro secret mem a b split
  have solid := solid_secret mem
  have long := length_secret mem
  let hex : UInt8 → Bool := fun b => isHex (Char.ofNat b.toNat)
  have bytes : Masking.Solid hex (Lossy.ascii secret) := by
    refine ⟨by simpa [Lossy.ascii] using solid.some, fun d inside => ?_⟩
    obtain ⟨c, inside', rfl⟩ := List.mem_map.mp inside
    have kind := solid.kind c inside'
    simpa [hex, Lossy.toNat_byte (small_of_isHex kind)] using kind
  have size : (Lossy.ascii secret).length = secret.length := List.length_map _
  obtain ⟨name, value, named⟩ := sample_sizes
  have sample : a ++ Lossy.ascii secret ++ b = (Lossy.ascii Sample.variable_).dropLast ++ 61 ::
      (Lossy.ascii (randomSecret Sample.launched.pairing) ++ 32 :: List.replicate n 120) := by
    rw [← split, Sample.output, named]
    simp
  obtain ⟨y, first, -⟩ | ⟨x, rfl, rest⟩ := bytes.split (by decide) sample
  · have short := congrArg List.length first
    simp only [List.length_append, size, List.length_dropLast, name] at short
    omega
  obtain ⟨y, first, rfl⟩ | ⟨x', -, message⟩ := bytes.split (by decide) rest.symm
  · have whole := congrArg List.length first
    simp only [List.length_append, size] at whole
    obtain rfl : x = [] := List.length_eq_zero_iff.mp (by omega)
    refine ⟨⟨Sample.variable_, by decide, [], ?_⟩, ?_⟩
    · rw [List.nil_append]
      exact named
    · obtain rfl : y = [] := List.length_eq_zero_iff.mp (by omega)
      rw [List.nil_append, ← List.nil_append (32 :: _), Lossy.decode,
        Lossy.decodeFrom_append_ascii (by decide)]
      intro c head
      obtain rfl := Option.some.inj head
      decide
  · obtain ⟨d, inside⟩ := List.exists_mem_of_ne_nil _ bytes.some
    have kind := bytes.kind d inside
    have plain : d = 120 := List.eq_of_mem_replicate (n := n) (by rw [message]; simp [inside])
    rw [plain] at kind
    exact absurd kind (by decide)

/-- The message is so long that the buffer begins behind the name. -/
theorem secret_behind_cut : ¬ ∀ launch stream,
    (∀ secret ∈ Launch.secrets launch, AssignedOnly stream secret) → Discreet launch stream := by
  intro always
  have discreet := always Sample.launched (Sample.output 16319) (assigned_output _)
  have mem : randomSecret Sample.launched.pairing ∈ Sample.launched.secrets := List.mem_cons_self
  have hidden := (discreet _ (cuts_singles _)).1 _ mem
  rw [(cuts_singles _).captured, infix_diagnosticsText mem,
    shown_iff (solid_secret mem) (assigned_output _ _ mem)] at hidden
  refine hidden (.inl ⟨Sample.variable_, by decide, [], 32 :: List.replicate 16319 120,
    List.nil_suffix, by decide, ?_⟩)
  obtain ⟨name, secret, -⟩ := sample_sizes
  have drop : (Sample.output 16319).length - MAX_DIAGNOSTIC_BYTES =
      (Lossy.ascii Sample.variable_).length := by
    rw [Sample.output, MAX_DIAGNOSTIC_BYTES]
    simp only [List.length_append, List.length_cons, List.length_replicate, secret, name]
  rw [tail, drop, Sample.output, List.drop_left]
  rfl

/-- A message that leaves the whole assignment in the buffer. -/
theorem discreet_output :
    (∀ secret ∈ Sample.launched.secrets, AssignedOnly (Sample.output 4) secret) ∧
      (Discreet Sample.launched (Sample.output 4) ↔ ∀ secret ∈ Sample.launched.secrets,
        ¬ CutName (Sample.output 4) secret ∧ ¬ Joined (Sample.output 4) secret) :=
  ⟨assigned_output 4, discreet_iff _ _ (assigned_output 4)⟩

end Corvus.Desktop
