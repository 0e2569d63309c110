import Dis.Proofs.Walk

/-! The walk that steps over what is malformed. Every buffer is cut into frames that show where
they end, up to its end or up to octets that show no such thing, and the walk accounts for each
of them by itself: a frame says the same wherever it stands and whatever stands around it. -/

namespace Dis.Frame

def WalkMode.lenient (allowUnknown : Bool) : WalkMode := ⟨allowUnknown, true⟩

/-- Octets that declare the length they have. -/
def IsWhole (frame : Octets) : Prop :=
  declaredLength frame = some frame.length ∧ pduHeaderSize ≤ frame.length

/-- A buffer, the frames that it is cut into, and the tail in which no frame can be made out. -/
inductive Cuts : Octets → List Octets → Octets → Prop where
  | finished : Cuts [] [] []
  | lost {tail : Octets} {declared : Option Nat} : tail ≠ [] → frameLength tail = .error declared →
      Cuts tail [] tail
  | frame {frame rest tail : Octets} {frames : List Octets} : IsWhole frame →
      Cuts rest frames tail → Cuts (frame ++ rest) (frame :: frames) tail

section Cuts

variable {data rest tail frame : Octets} {frames others : List Octets}

theorem declaredLength_append (enough : pduHeaderSize ≤ frame.length) (rest : Octets) :
    declaredLength (frame ++ rest) = declaredLength frame := by
  have place : headerLengthOffset + 2 ≤ pduHeaderSize := by decide
  have shown : ((frame ++ rest).drop headerLengthOffset).take 2 =
      (frame.drop headerLengthOffset).take 2 := by
    rw [List.drop_append_of_le_length (by omega), List.take_append_of_le_length]
    rw [List.length_drop]
    omega
  simp only [declaredLength, shown, List.length_take, List.length_append]
  rw [if_neg (by omega), if_neg (by omega)]

theorem IsWhole.frameLength_append (whole : IsWhole frame) (rest : Octets) :
    frameLength (frame ++ rest) = .ok frame.length := by
  apply frameLength_eq_ok.mpr
  refine ⟨?_, whole.2, ?_⟩
  · rw [declaredLength_append whole.2, whole.1]
  · rw [List.length_append]
    exact Nat.le_add_right _ _

theorem isWhole_take {length : Nat} (found : frameLength data = .ok length) :
    IsWhole (data.take length) := by
  obtain ⟨declared, least, most⟩ := frameLength_eq_ok.mp found
  have size : (data.take length).length = length := List.length_take_of_le most
  have enough : pduHeaderSize ≤ (data.take length).length := by omega
  have shown := declaredLength_append enough (data.drop length)
  rw [List.take_append_drop, declared] at shown
  exact ⟨by rw [← shown, size], enough⟩

theorem isWhole_of_decode {registry : Registry} {allowUnknown : Bool} {pdu : Pdu}
    (decoded : (decode registry allowUnknown frame).value = .ok pdu) : IsWhole frame := by
  have found := frameLength_of_decode decoded []
  rw [List.append_nil] at found
  obtain ⟨declared, least, -⟩ := frameLength_eq_ok.mp found
  exact ⟨declared, least⟩

theorem exists_cuts (data : Octets) : ∃ frames tail, Cuts data frames tail := by
  -- On the number of octets left, of which a frame takes one at least.
  induction size : data.length using Nat.strong_induction_on generalizing data with
  | _ size ih =>
      subst size
      by_cases present : data = []
      · subst present
        exact ⟨[], [], .finished⟩
      · cases found : frameLength data with
        | error declared => exact ⟨[], data, .lost present found⟩
        | ok length =>
            have bounds := frameLength_bounds found
            have shorter : (data.drop length).length < data.length := by
              rw [List.length_drop]
              omega
            obtain ⟨frames, tail, later⟩ := ih _ shorter (data.drop length) rfl
            have joined := Cuts.frame (isWhole_take found) later
            rw [List.take_append_drop] at joined
            exact ⟨data.take length :: frames, tail, joined⟩

theorem Cuts.split (cuts : Cuts data frames tail) : data = frames.flatten ++ tail := by
  induction cuts with
  | finished => rfl
  | lost present lost => rfl
  | frame whole later ih => rw [List.flatten_cons, List.append_assoc, ← ih]

theorem Cuts.append (whole : ∀ frame ∈ frames, IsWhole frame) (cuts : Cuts rest others tail) :
    Cuts (frames.flatten ++ rest) (frames ++ others) tail := by
  induction frames with
  | nil => exact cuts
  | cons frame frames ih =>
      rw [List.flatten_cons, List.append_assoc]
      apply Cuts.frame
      · exact whole frame List.mem_cons_self
      · exact ih fun other listed => whole other (List.mem_cons_of_mem frame listed)

end Cuts

variable {registry : Registry} {allowUnknown : Bool} {data rest tail frame : Octets}
variable {frames : List Octets}

/-- What is said of a frame at an offset: the PDU it decodes to, or that it is dropped. -/
def outcome (registry : Registry) (allowUnknown : Bool) (offset : Nat) (frame : Octets) : Item :=
  match (decode registry allowUnknown frame).value with
  | .ok pdu => .pdu pdu
  | .error e => .event (.dropped offset e (frame.take pduHeaderSize))

def outcomes (registry : Registry) (allowUnknown : Bool) : Nat → List Octets → List Item
  | _, [] => []
  | offset, frame :: frames =>
    outcome registry allowUnknown offset frame ::
      outcomes registry allowUnknown (offset + frame.length) frames

/-- What is said of a tail at an offset. -/
def ending (offset : Nat) (tail : Octets) : List Item :=
  if tail = [] then []
  else [.event (.abandoned (.noFrame offset (declaredLength tail) tail.length))]

/-- Everything but what only a developer asks to see. -/
def Item.isNotice : Item → Bool
  | .pdu _ => true
  | .event report => report.level ≠ .debug

def Walk.notices (walk : Walk) : List Item := walk.items.filter Item.isNotice

/-- The PDU of a frame, if it has one. -/
def yielded (registry : Registry) (allowUnknown : Bool) (frame : Octets) : Option Pdu :=
  (decode registry allowUnknown frame).value.toOption

section Step

theorem level_of_decode {event : Event}
    (reported : event ∈ (decode registry allowUnknown frame).events) : event.level = .debug := by
  unfold decode at reported
  split at reported
  · cases reported
  · split at reported
    · cases reported
    · split at reported
      · rw [List.mem_singleton.mp reported]
        rfl
      · cases reported

theorem step_lenient (registry : Registry) (allowUnknown : Bool) (offset : Nat) (frame : Octets) :
    step registry (.lenient allowUnknown) offset frame =
      ⟨(decode registry allowUnknown frame).events.map Item.event ++
        [outcome registry allowUnknown offset frame], none⟩ := by
  unfold outcome
  cases attempt : (decode registry allowUnknown frame).value with
  | ok pdu => exact step_of_decode (.lenient allowUnknown) offset attempt
  | error e =>
      rw [events_of_error attempt]
      exact step_of_refusal (.lenient allowUnknown) offset attempt

theorem notices_step (offset : Nat) :
    (step registry (.lenient allowUnknown) offset frame).notices =
      [outcome registry allowUnknown offset frame] := by
  have silent : ((decode registry allowUnknown frame).events.map Item.event).filter
      Item.isNotice = [] := by
    apply List.filter_eq_nil_iff.mpr
    intro item listed
    obtain ⟨event, reported, rfl⟩ := List.mem_map.mp listed
    simp [Item.isNotice, level_of_decode reported]
  have loud : Item.isNotice (outcome registry allowUnknown offset frame) = true := by
    unfold outcome
    split <;> rfl
  rw [step_lenient, Walk.notices, List.filter_append, silent, List.nil_append,
    List.filter_cons_of_pos loud, List.filter_nil]

theorem pdus_step (offset : Nat) :
    (step registry (.lenient allowUnknown) offset frame).pdus =
      (yielded registry allowUnknown frame).toList := by
  rw [step_lenient, Walk.pdus, List.filterMap_append, outcome, yielded]
  cases (decode registry allowUnknown frame).value <;> simp [Except.toOption]

theorem Walk.notices_after (walk first : Walk) :
    (walk.after first.items).notices = first.notices ++ walk.notices :=
  List.filter_append ..

theorem Walk.pdus_after (walk first : Walk) :
    (walk.after first.items).pdus = first.pdus ++ walk.pdus :=
  List.filterMap_append

end Step

section Account

variable (registry : Registry) (allowUnknown : Bool)

theorem walkFrom_whole (offset : Nat) (rest : Octets) (whole : IsWhole frame) :
    walkFrom registry (.lenient allowUnknown) offset (frame ++ rest) =
      (walkFrom registry (.lenient allowUnknown) (offset + frame.length) rest).after
        (step registry (.lenient allowUnknown) offset frame).items := by
  apply walkFrom_of_step (whole.frameLength_append rest)
  rw [step_lenient]

theorem walkFrom_tail {declared : Option Nat} (offset : Nat) (present : tail ≠ [])
    (lost : frameLength tail = .error declared) :
    walkFrom registry (.lenient allowUnknown) offset tail = ⟨ending offset tail, none⟩ := by
  rw [walkFrom_of_lost offset present lost, (frameLength_eq_error.mp lost).1, ending,
    if_neg present]
  rfl

theorem error_lenient (offset : Nat) (cuts : Cuts data frames tail) :
    (walkFrom registry (.lenient allowUnknown) offset data).error = none := by
  induction cuts generalizing offset with
  | finished => rw [walkFrom_nil]
  | lost present lost => rw [walkFrom_tail registry allowUnknown offset present lost]
  | @frame frame rest tail frames whole later ih =>
      rw [walkFrom_whole registry allowUnknown offset rest whole]
      exact ih (offset + frame.length)

theorem notices_ending (offset : Nat) (tail : Octets) :
    Walk.notices ⟨ending offset tail, none⟩ = ending offset tail := by
  unfold ending
  split <;> rfl

theorem notices_lenient (offset : Nat) (cuts : Cuts data frames tail) :
    (walkFrom registry (.lenient allowUnknown) offset data).notices =
      outcomes registry allowUnknown offset frames ++
        ending (offset + frames.flatten.length) tail := by
  induction cuts generalizing offset with
  | finished =>
      rw [walkFrom_nil]
      rfl
  | @lost tail declared present lost =>
      rw [walkFrom_tail registry allowUnknown offset present lost, notices_ending]
      rfl
  | @frame frame rest tail frames whole later ih =>
      rw [walkFrom_whole registry allowUnknown offset rest whole, Walk.notices_after,
        notices_step, ih, outcomes, List.flatten_cons, List.length_append, Nat.add_assoc]
      rfl

theorem pdus_lenient (offset : Nat) (cuts : Cuts data frames tail) :
    (walkFrom registry (.lenient allowUnknown) offset data).pdus =
      frames.filterMap (yielded registry allowUnknown) := by
  induction cuts generalizing offset with
  | finished =>
      rw [walkFrom_nil]
      rfl
  | @lost tail declared present lost =>
      rw [walkFrom_tail registry allowUnknown offset present lost, ending, if_neg present]
      rfl
  | @frame frame rest tail frames whole later ih =>
      rw [walkFrom_whole registry allowUnknown offset rest whole, Walk.pdus_after, pdus_step, ih,
        List.filterMap_cons]
      cases yielded registry allowUnknown frame <;> rfl

end Account

theorem pdus_append (registry : Registry) (allowUnknown : Bool) (rest : Octets)
    (whole : ∀ frame ∈ frames, IsWhole frame) :
    (walk registry (.lenient allowUnknown) (frames.flatten ++ rest)).pdus =
      frames.filterMap (yielded registry allowUnknown) ++
        (walk registry (.lenient allowUnknown) rest).pdus := by
  obtain ⟨others, tail, cuts⟩ := exists_cuts rest
  rw [walk, walk, pdus_lenient registry allowUnknown 0 (cuts.append whole),
    pdus_lenient registry allowUnknown 0 cuts, List.filterMap_append]

theorem pdus_isolated (registry : Registry) (allowUnknown : Bool) (rest : Octets)
    {bad : Octets} {e : Error} (whole : ∀ frame ∈ frames, IsWhole frame) (bounded : IsWhole bad)
    (refused : (decode registry allowUnknown bad).value = .error e) :
    (walk registry (.lenient allowUnknown) (frames.flatten ++ (bad ++ rest))).pdus =
      (walk registry (.lenient allowUnknown) frames.flatten).pdus ++
        (walk registry (.lenient allowUnknown) rest).pdus := by
  obtain ⟨others, tail, cuts⟩ := exists_cuts rest
  have joined := (Cuts.frame bounded cuts).append whole
  have alone := Cuts.finished.append whole
  have nothing : yielded registry allowUnknown bad = none := by
    rw [yielded, refused]
    rfl
  rw [List.append_nil, List.append_nil] at alone
  rw [walk, walk, walk, pdus_lenient _ _ 0 joined, pdus_lenient _ _ 0 alone,
    pdus_lenient _ _ 0 cuts, List.filterMap_append, List.filterMap_cons, nothing]

theorem isWhole_of_decodes {pdus : List Pdu} (decodes : Decodes registry allowUnknown frames pdus) :
    ∀ frame ∈ frames, IsWhole frame := by
  induction decodes with
  | nil => exact List.forall_mem_nil _
  | cons decoded later ih => exact List.forall_mem_cons.mpr ⟨isWhole_of_decode decoded, ih⟩

theorem yielded_of_decodes {pdus : List Pdu} (decodes : Decodes registry allowUnknown frames pdus) :
    frames.filterMap (yielded registry allowUnknown) = pdus := by
  induction decodes with
  | nil => rfl
  | cons decoded later ih =>
      rw [List.filterMap_cons, yielded, decoded, ih]
      rfl

theorem pdus_prefix (registry : Registry) (allowUnknown : Bool) (data : Octets) :
    (walk registry (.strict allowUnknown) data).pdus <+:
        (walk registry (.lenient allowUnknown) data).pdus ∧
      ((walk registry (.strict allowUnknown) data).error = none →
        (walk registry (.strict allowUnknown) data).pdus =
          (walk registry (.lenient allowUnknown) data).pdus) := by
  obtain ⟨frames, pdus, rest, rfl, decodes, ended⟩ := walk_cases registry allowUnknown 0 data
  have lenient := pdus_append registry allowUnknown rest (isWhole_of_decodes decodes)
  have strict : (walk registry (.strict allowUnknown) (frames.flatten ++ rest)).pdus = pdus := by
    rcases ended with ⟨-, walked⟩ | ⟨e, -, walked⟩
    · rw [walk, walked, pdus_of_frames decodes]
    · rw [walk, walked, pdus_of_frames decodes]
  rw [yielded_of_decodes decodes] at lenient
  constructor
  · rw [strict, lenient]
    exact List.prefix_append _ _
  · intro finished
    rcases ended with ⟨rfl, -⟩ | ⟨e, -, walked⟩
    · rw [strict, lenient, walk, walkFrom_nil]
      exact (List.append_nil pdus).symm
    · rw [walk, walked] at finished
      cases finished

theorem length_of_cuts (registry : Registry) (allowUnknown : Bool)
    (cuts : Cuts data frames tail) :
    (frames.filter fun frame => (yielded registry allowUnknown frame).isSome).flatten.length +
        (frames.filter fun frame => (yielded registry allowUnknown frame).isNone).flatten.length +
        tail.length = data.length := by
  induction cuts with
  | finished => rfl
  | lost present lost => simp
  | @frame frame rest tail frames whole later ih =>
      rw [List.length_append, ← ih]
      cases found : yielded registry allowUnknown frame with
      | none =>
          rw [List.filter_cons_of_neg (by simp [found]), List.filter_cons_of_pos (by simp [found]),
            List.flatten_cons, List.length_append]
          omega
      | some pdu =>
          rw [List.filter_cons_of_pos (by simp [found]), List.filter_cons_of_neg (by simp [found]),
            List.flatten_cons, List.length_append]
          omega

/-- The lenient walk never fails. It hands out one thing for each frame, in their order, and
one for a tail, so that no octet is passed over in silence. A malformed frame leaves what its
neighbours say as it is, and what the strict walk hands out comes first. -/
theorem lenient_walk (registry : Registry) (allowUnknown : Bool) :
    (∀ data, (walk registry (.lenient allowUnknown) data).error = none ∧
      ∃ frames tail, Cuts data frames tail ∧ data = frames.flatten ++ tail ∧
        (walk registry (.lenient allowUnknown) data).notices =
          outcomes registry allowUnknown 0 frames ++ ending frames.flatten.length tail ∧
        (frames.filter fun frame => (yielded registry allowUnknown frame).isSome).flatten.length +
          (frames.filter fun frame => (yielded registry allowUnknown frame).isNone).flatten.length +
          tail.length = data.length) ∧
    (∀ offset e header, (Event.dropped offset e header).level = .warning ∧
      (Event.dropped offset e header).message =
        s!"Dropping malformed PDU at offset {offset}: {e.message}" ∧
      (Event.dropped offset e header).extras = [("pdu_header", .octets header)]) ∧
    (∀ e, (Event.abandoned e).level = .warning ∧
      (Event.abandoned e).message = s!"Abandoning buffer: {e.message}") ∧
    (∀ (frames : List Octets) (bad rest : Octets) (e : Error),
      (∀ frame ∈ frames, IsWhole frame) → IsWhole bad →
      (decode registry allowUnknown bad).value = .error e →
      (walk registry (.lenient allowUnknown) (frames.flatten ++ (bad ++ rest))).pdus =
        (walk registry (.lenient allowUnknown) frames.flatten).pdus ++
          (walk registry (.lenient allowUnknown) rest).pdus) ∧
    (∀ data, (walk registry (.strict allowUnknown) data).pdus <+:
        (walk registry (.lenient allowUnknown) data).pdus ∧
      ((walk registry (.strict allowUnknown) data).error = none →
        (walk registry (.strict allowUnknown) data).pdus =
          (walk registry (.lenient allowUnknown) data).pdus)) := by
  refine ⟨?_, ?_, ?_, ?_, ?_⟩
  · intro data
    obtain ⟨frames, tail, cuts⟩ := exists_cuts data
    have said := notices_lenient registry allowUnknown 0 cuts
    rw [Nat.zero_add] at said
    exact ⟨error_lenient registry allowUnknown 0 cuts, frames, tail, cuts, cuts.split, said,
      length_of_cuts registry allowUnknown cuts⟩
  · intro offset e header
    exact ⟨rfl, rfl, rfl⟩
  · intro e
    exact ⟨rfl, rfl⟩
  · intro frames bad rest e whole bounded refused
    exact pdus_isolated registry allowUnknown rest whole bounded refused
  · intro data
    exact pdus_prefix registry allowUnknown data

/-- Two frames that nobody reads, and between them one whose body is cut short. -/
theorem lenient_walk_samples :
    (walk .standard (.lenient true)
      ([[7, 1, 0, 0, 0, 0, 0, 0, 0, 15, 0, 0, 9, 8, 7]].flatten ++
        ([7, 1, 11, 5, 0, 0, 0, 0, 0, 13, 0, 0, 1] ++
          [7, 1, 0, 0, 0, 0, 0, 0, 0, 15, 0, 0, 9, 8, 7]))).pdus =
      [Pdu.withLength ⟨.unknown, .initial .standard, ([9, 8, 7] : Octets)⟩ 15,
        Pdu.withLength ⟨.unknown, .initial .standard, ([9, 8, 7] : Octets)⟩ 15] := by
  obtain ⟨-, -, -, isolated, same⟩ := lenient_walk .standard true
  have decoded : (decode .standard true [7, 1, 0, 0, 0, 0, 0, 0, 0, 15, 0, 0, 9, 8, 7]).value =
      .ok (Pdu.withLength ⟨.unknown, .initial .standard, ([9, 8, 7] : Octets)⟩ 15) := by
    set_option maxRecDepth 4096 in
    rfl
  obtain ⟨e, refused⟩ : ∃ e,
      (decode .standard true [7, 1, 11, 5, 0, 0, 0, 0, 0, 13, 0, 0, 1]).value = .error e :=
    ⟨_, by set_option maxRecDepth 4096 in rfl⟩
  have strict := walk_finished_iff.mpr
    ⟨[[7, 1, 0, 0, 0, 0, 0, 0, 0, 15, 0, 0, 9, 8, 7]], rfl, .cons decoded .nil⟩
  have alone := (same _).2 strict.1
  have apart := isolated [[7, 1, 0, 0, 0, 0, 0, 0, 0, 15, 0, 0, 9, 8, 7]]
    [7, 1, 11, 5, 0, 0, 0, 0, 0, 13, 0, 0, 1] [7, 1, 0, 0, 0, 0, 0, 0, 0, 15, 0, 0, 9, 8, 7] e
    (List.forall_mem_singleton.mpr (isWhole_of_decode decoded)) ⟨by decide, by decide⟩ refused
  rw [strict.2] at alone
  rw [apart, ← alone]
  exact congrArg (_ :: ·) alone.symm

end Dis.Frame
