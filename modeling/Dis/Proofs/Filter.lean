import Dis.Proofs.Codec
import Dis.Proofs.Lenient

/-! One frame by two ways: decoded by itself, or walked as a buffer that holds nothing else. What
the walk says of it is told from what decoding comes to. The filter for the exercise belongs to the
walk alone, and sets the two ways apart. -/

namespace Dis

/-- Walking a buffer that is one frame is one step, whatever that step comes to. -/
theorem Frame.walk_of_whole (registry : Registry) (mode : WalkMode) {frame : Octets}
    (whole : IsWhole frame) : walk registry mode frame = step registry mode 0 frame := by
  have shown := whole.frameLength_append []
  rcases walkFrom_of_frame registry mode 0 shown with ⟨goes, ends⟩
  rw [List.append_nil, walkFrom_nil] at goes
  rw [List.append_nil] at ends
  rw [walk]
  cases ended : (step registry mode 0 frame).error with
  | some e => exact ends e ended
  | none => rw [goes ended, Walk.after, List.append_nil, ← ended]

namespace Codec

variable {codec : Codec} {registry : Registry} {data : Octets} {pdu : Pdu} {e : Error}

theorem follows_iff : codec.follows pdu ↔
    (codec.config.filterExercise → pdu.header.exerciseId = codec.config.exerciseId) := by
  unfold follows
  cases codec.config.filterExercise <;> simp

def mode (codec : Codec) : Frame.WalkMode :=
  ⟨codec.config.skipUnknownPdus, codec.config.skipMalformedPdus⟩

theorem walk_eq (codec : Codec) (registry : Registry) (data : Octets) :
    codec.walk registry data =
      ⟨(Frame.walk registry codec.mode data).items.map codec.follow,
        (Frame.walk registry codec.mode data).error⟩ := rfl

theorem follows_of_mem_walk (given : pdu ∈ (codec.walk registry data).pdus) :
    codec.follows pdu := by
  rw [walk_eq, pdus_map_follow] at given
  exact (List.mem_filter.mp given).2

theorem walk_of_decode (whole : Frame.IsWhole data)
    (decoded : (codec.decode registry data).value = .ok pdu) :
    codec.walk registry data =
      ⟨(codec.decode registry data).events.map Frame.Item.event ++ [codec.follow (.pdu pdu)],
        none⟩ := by
  have stepped := Frame.step_of_decode codec.mode 0 decoded
  rw [walk_eq, Frame.walk_of_whole registry codec.mode whole, stepped, List.map_append,
    List.map_map]
  rfl

theorem walk_of_refusal (whole : Frame.IsWhole data)
    (refused : (codec.decode registry data).value = .error e) :
    codec.walk registry data =
      if codec.config.skipMalformedPdus then
        ⟨[.event (.dropped 0 e (data.take pduHeaderSize))], none⟩
      else ⟨[], some e⟩ := by
  have stepped := Frame.step_of_refusal codec.mode 0 refused
  rw [walk_eq, Frame.walk_of_whole registry codec.mode whole, stepped, mode]
  cases codec.config.skipMalformedPdus <;> rfl

theorem pdus_of_decode (whole : Frame.IsWhole data)
    (decoded : (codec.decode registry data).value = .ok pdu) :
    (codec.walk registry data).pdus = if codec.follows pdu then [pdu] else [] := by
  rw [walk_of_decode whole decoded, follow_pdu]
  by_cases kept : codec.follows pdu
  · simp [Frame.Walk.pdus, List.filterMap_append, kept]
  · simp [Frame.Walk.pdus, List.filterMap_append, kept]

theorem events_of_decode (whole : Frame.IsWhole data)
    (decoded : (codec.decode registry data).value = .ok pdu) :
    (codec.walk registry data).events =
      (codec.decode registry data).events ++ if codec.follows pdu then [] else [ignored pdu] := by
  rw [walk_of_decode whole decoded, follow_pdu]
  by_cases kept : codec.follows pdu
  · simp [Frame.Walk.events, List.filterMap_append, kept]
  · simp [Frame.Walk.events, List.filterMap_append, kept]

theorem pdus_of_refusal (whole : Frame.IsWhole data)
    (refused : (codec.decode registry data).value = .error e) :
    (codec.walk registry data).pdus = [] := by
  rw [walk_of_refusal whole refused]
  split <;> rfl

theorem error_of_refusal (whole : Frame.IsWhole data)
    (refused : (codec.decode registry data).value = .error e) :
    (codec.walk registry data).error =
      if codec.config.skipMalformedPdus then none else some e := by
  rw [walk_of_refusal whole refused]
  split <;> rfl

def Yields (codec : Codec) (registry : Registry) (data : Octets) (pdu : Pdu) : Prop :=
  (codec.walk registry data).pdus = [pdu] ∧ (codec.walk registry data).error = none

theorem yields_iff (whole : Frame.IsWhole data) :
    codec.Yields registry data pdu ↔
      (codec.decode registry data).value = .ok pdu ∧ codec.follows pdu := by
  unfold Yields
  cases attempt : (codec.decode registry data).value with
  | error e => simp [pdus_of_refusal whole attempt]
  | ok found =>
      have ended : (codec.walk registry data).error = none := by
        rw [walk_of_decode whole attempt]
      rw [pdus_of_decode whole attempt]
      by_cases kept : codec.follows found
      · simp only [kept, if_true, ended, and_true, List.cons.injEq, Except.ok.injEq]
        constructor
        · rintro rfl
          exact ⟨rfl, kept⟩
        · exact And.left
      · simp only [kept, ended]
        constructor
        · rintro ⟨none, -⟩
          cases none
        · rintro ⟨same, followed⟩
          cases same
          exact absurd followed kept

theorem exercise_of_decode (decoded : (codec.decode registry data).value = .ok pdu) :
    pdu.header.exerciseId = Header.octet data 1 := by
  have peeked := (Frame.dispatches_of_decode decoded).header
  rw [(Header.spelled_of_peek peeked).2]
  rfl

/-- One frame by both ways, under any configuration. Walked, it is handed out if it decodes and
the filter lets it through; otherwise nothing is, and the walk ends as the configuration says.
Decoding alone asks for no exercise: the two ways differ on the frames of other exercises that
decode while the filter is on, and on nothing else. -/
theorem filter_law (codec : Codec) (registry : Registry) :
    (∀ data, Frame.IsWhole data →
      (∀ pdu, codec.Yields registry data pdu ↔ (codec.decode registry data).value = .ok pdu ∧
        (codec.config.filterExercise → pdu.header.exerciseId = codec.config.exerciseId)) ∧
      (∀ pdu, (codec.decode registry data).value = .ok pdu →
        pdu.header.exerciseId = Header.octet data 1 ∧
        (codec.walk registry data).error = none ∧
        (codec.walk registry data).events = (codec.decode registry data).events ++
          if codec.follows pdu then [] else [ignored pdu]) ∧
      (∀ e, (codec.decode registry data).value = .error e →
        (codec.walk registry data).pdus = [] ∧
        (codec.walk registry data).error =
          if codec.config.skipMalformedPdus then none else some e) ∧
      ((∀ pdu, codec.Yields registry data pdu ↔ (codec.decode registry data).value = .ok pdu) ↔
        (codec.config.filterExercise → (Header.octet data 1 : Int) = codec.config.exerciseId ∨
          ∃ e, (codec.decode registry data).value = .error e))) ∧
    (∀ buffer, codec.config.filterExercise → ∀ pdu ∈ (codec.walk registry buffer).pdus,
      pdu.header.exerciseId = codec.config.exerciseId) := by
  constructor
  · intro data whole
    refine ⟨?_, ?_, ?_, ?_⟩
    · intro pdu
      rw [yields_iff whole, follows_iff]
    · intro pdu decoded
      refine ⟨exercise_of_decode decoded, ?_, events_of_decode whole decoded⟩
      rw [walk_of_decode whole decoded]
    · intro e refused
      exact ⟨pdus_of_refusal whole refused, error_of_refusal whole refused⟩
    · constructor
      · intro agree filtered
        cases attempt : (codec.decode registry data).value with
        | error e => exact Or.inr ⟨e, rfl⟩
        | ok pdu =>
            have yielded := (yields_iff whole).mp ((agree pdu).mpr attempt)
            rw [← exercise_of_decode attempt]
            exact Or.inl (follows_iff.mp yielded.2 filtered)
      · intro own pdu
        rw [yields_iff whole, follows_iff]
        constructor
        · exact And.left
        · intro decoded
          refine ⟨decoded, fun filtered => ?_⟩
          rw [exercise_of_decode decoded]
          rcases own filtered with same | ⟨e, refused⟩
          · exact same
          · rw [decoded] at refused
            cases refused
  · intro buffer filtered pdu given
    exact follows_iff.mp (follows_of_mem_walk given) filtered

/-- A request of the exercise that is followed, one that is cut short, and one of another
exercise without the filter. -/
theorem filter_law_samples :
    let frame : Octets := [7, 3, 11, 5, 0, 0, 0, 9, 0, 28, 0, 0, 0, 1, 0, 2, 0, 3, 0, 4, 0, 5, 0, 6,
      0, 0, 0, 7]
    let cut : Octets := [7, 3, 11, 5, 0, 0, 0, 9, 0, 13, 0, 0, 1]
    let own : Codec := ⟨{ exerciseId := 3, filterExercise := true }⟩
    let other : Codec := ⟨{ exerciseId := 4, skipMalformedPdus := true }⟩
    (∀ pdu, own.Yields .standard frame pdu ↔ (own.decode .standard frame).value = .ok pdu) ∧
    other.Yields .standard frame ⟨.createEntity, Header.spelled frame,
      (EntityId.of 1 2 3, EntityId.of 4 5 6, (7 : Int), ())⟩ ∧
    (other.walk .standard cut).error = none ∧
    ∀ pdu ∈ (own.walk .standard (frame ++ cut)).pdus, pdu.header.exerciseId = 3 := by
  intro frame cut own other
  rcases filter_law own .standard with ⟨single, every⟩
  rcases filter_law other .standard with ⟨unfiltered, -⟩
  rcases single frame ⟨by decide, by decide⟩ with ⟨-, -, -, agree⟩
  rcases unfiltered frame ⟨by decide, by decide⟩ with ⟨yields, -⟩
  rcases unfiltered cut ⟨by decide, by decide⟩ with ⟨-, -, refused, -⟩
  refine ⟨agree.mpr fun _ => Or.inl rfl, (yields _).mpr ⟨?_, ?_⟩, ?_, every (frame ++ cut) rfl⟩
  · set_option maxRecDepth 4096 in
    rfl
  · intro filtered
    cases filtered
  · exact (refused _ (by set_option maxRecDepth 4096 in rfl)).2

/-- A frame of exercise 1, where exercise 3 is followed: the walk passes over it, and decoding
hands it out. -/
theorem foreign_decoded :
    let frame : Octets := [7, 1, 11, 5, 0, 0, 0, 0, 0, 28, 0, 0, 0, 1, 0, 2, 0, 3, 0, 4, 0, 5, 0, 6,
      0, 0, 0, 7]
    let codec : Codec := ⟨{ exerciseId := 3, filterExercise := true }⟩
    Frame.IsWhole frame ∧ (codec.walk .standard frame).pdus = [] ∧
    ∃ pdu, (codec.decode .standard frame).value = .ok pdu ∧ pdu.header.exerciseId = 1 := by
  intro frame codec
  have decoded : (codec.decode .standard frame).value = .ok ⟨.createEntity, Header.spelled frame,
      (EntityId.of 1 2 3, EntityId.of 4 5 6, (7 : Int), ())⟩ := by
    set_option maxRecDepth 4096 in
    rfl
  have whole : Frame.IsWhole frame := ⟨by decide, by decide⟩
  refine ⟨whole, ?_, _, decoded, rfl⟩
  rw [pdus_of_decode whole decoded]
  rfl

end Codec
end Dis
