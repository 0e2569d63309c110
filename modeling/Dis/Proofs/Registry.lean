import Dis.Proofs.Header

/-! Registries that a program comes to. Kinds are registered and removed in any order, and
still every header has one kind that reads what follows it. One call keeps what is asked of a
registry, hence every history of calls does: no key has two owners, and no owner has a header of
another shape than its family's. -/

namespace Dis

theorem PduKind.stamp_eq_self {kind : PduKind} {header : Header}
    (type : header.pduType = kind.typeCode) (family : header.protocolFamily = kind.familyCode) :
    kind.stamp header = header := by
  unfold stamp
  split
  · rw [← type, ← family]
  · rfl

namespace Registry

variable {registry next : Registry} {kind other : PduKind}

theorem lookup_eq_some {key : PduKey} (found : registry.lookup key = some kind) :
    kind ∈ registry.kinds ∧ kind.key = key :=
  ⟨List.mem_of_find?_eq_some found, by simpa using List.find?_some found⟩

def reader (registry : Registry) (header : Header) : PduKind :=
  (registry.lookup ⟨header.pduType.number, header.protocolFamily.number⟩).getD .unknown

theorem reader_cases (registry : Registry) (header : Header) :
    registry.reader header = .unknown ∨ registry.reader header ∈ registry.kinds ∧
      (registry.reader header).key = ⟨header.pduType.number, header.protocolFamily.number⟩ := by
  unfold reader
  cases found : registry.lookup ⟨header.pduType.number, header.protocolFamily.number⟩ with
  | none => exact Or.inl rfl
  | some kind => exact Or.inr (lookup_eq_some found)

theorem stamp_reader {header : Header} (settled : header.norm = header)
    (called : registry.reader header = kind) : kind.stamp header = header := by
  subst called
  rcases registry.reader_cases header with unknown | ⟨-, key⟩
  · rw [unknown]
    rfl
  · obtain ⟨type, family⟩ := PduKey.mk.inj key
    have types := header.pduType_norm
    have families := header.protocolFamily_norm
    rw [settled, ← type] at types
    rw [settled, ← family] at families
    exact PduKind.stamp_eq_self types families

theorem new_reader {header : Header} (settled : header.norm = header)
    (called : registry.reader header = kind) (body : kind.body.Value) :
    Pdu.new kind header body = ⟨kind, header, body⟩ := by
  rw [Pdu.new, stamp_reader settled called]

inductive Call where
  | register (kind : PduKind)
  | unregister (kind : PduKind)

/-- The registry behind a call. -/
def Call.apply (registry : Registry) : Call → Registry
  | register kind => (registry.register kind).2
  | unregister kind => registry.unregister kind

def after (calls : List Call) : Registry := calls.foldl Call.apply .standard

def Owns (registry : Registry) (kind : PduKind) : Prop :=
  ∃ owner, registry.lookup kind.key = some owner ∧ owner.token = kind.token

structure IsRegular (registry : Registry) : Prop where
  unique : (registry.kinds.map PduKind.key).Nodup
  shaped : ∀ kind ∈ registry.kinds, kind.header = .ofFamily kind.family

section Step

theorem register_eq_ok : registry.register kind = (.ok (), next) ↔
    kind.header = .ofFamily kind.family ∧
      (registry.lookup kind.key = none ∧ next = ⟨registry.kinds ++ [kind]⟩ ∨
        registry.Owns kind ∧ next = registry) := by
  unfold register Owns
  cases registry.lookup kind.key with
  | none =>
      by_cases shape : kind.header = .ofFamily kind.family
      · simp [shape, eq_comm]
      · simp [shape]
  | some owner =>
      by_cases same : owner.token = kind.token
      · by_cases shape : kind.header = .ofFamily kind.family
        · simp [same, shape, eq_comm]
        · simp [same, shape]
      · simp [same]

theorem register_isOk_iff : (registry.register kind).1 = .ok () ↔
    kind.header = .ofFamily kind.family ∧
      ∀ owner, registry.lookup kind.key = some owner → owner.token = kind.token := by
  unfold register
  cases registry.lookup kind.key with
  | none =>
      by_cases shape : kind.header = .ofFamily kind.family
      · simp [shape]
      · simp [shape]
  | some owner =>
      by_cases same : owner.token = kind.token
      · by_cases shape : kind.header = .ofFamily kind.family
        · simp [same, shape]
        · simp [same, shape]
      · simp [same]

theorem register_of_refused {e : Error} (refused : (registry.register kind).1 = .error e) :
    (registry.register kind).2 = registry := by
  unfold register at refused ⊢
  cases owner : registry.lookup kind.key with
  | none =>
      by_cases shape : kind.header = .ofFamily kind.family
      · simp [owner, shape] at refused
      · simp [shape]
  | some owner =>
      simp only
      split
      · rfl
      · split <;> rfl

theorem lookup_eq_none {key : PduKey} :
    registry.lookup key = none ↔ ∀ kind ∈ registry.kinds, kind.key ≠ key := by
  simp [lookup]

theorem unregister_of_not_owns (other : ¬ registry.Owns kind) :
    registry.unregister kind = registry := by
  unfold unregister
  split
  · next owner found =>
    rw [if_neg]
    intro same
    exact other ⟨owner, found, same⟩
  · rfl

theorem isRegular_standard : IsRegular .standard where
  unique := by decide
  shaped kind listed := (PduKind.isRegular_of_mem kind listed).2.2

theorem isRegular_register (regular : registry.IsRegular)
    (registered : registry.register kind = (.ok (), next)) : next.IsRegular := by
  obtain ⟨shape, ⟨free, rfl⟩ | ⟨-, rfl⟩⟩ := register_eq_ok.mp registered
  · constructor
    · rw [List.map_append, List.map_singleton]
      apply List.Nodup.append regular.unique (List.nodup_singleton _)
      rw [List.disjoint_singleton]
      intro taken
      obtain ⟨owner, listed, same⟩ := List.mem_map.mp taken
      exact lookup_eq_none.mp free owner listed same
    · intro other listed
      rcases List.mem_append.mp listed with before | new
      · exact regular.shaped other before
      · rw [List.mem_singleton.mp new]
        exact shape
  · exact regular

theorem isRegular_unregister (regular : registry.IsRegular) (kind : PduKind) :
    (registry.unregister kind).IsRegular := by
  by_cases owner : registry.Owns kind
  · obtain ⟨owner, found, same⟩ := owner
    have left : registry.unregister kind =
        ⟨registry.kinds.filter fun other => other.key ≠ kind.key⟩ := by
      simp only [unregister, found, same, if_true]
    rw [left]
    constructor
    · exact regular.unique.sublist (List.filter_sublist.map _)
    · intro other listed
      exact regular.shaped other (List.mem_of_mem_filter listed)
  · rw [unregister_of_not_owns owner]
    exact regular

theorem isRegular_apply (regular : registry.IsRegular) (call : Call) :
    (call.apply registry).IsRegular := by
  cases call with
  | register kind =>
      rw [Call.apply]
      cases attempt : (registry.register kind).1 with
      | ok done => exact isRegular_register regular (Prod.ext attempt rfl)
      | error e =>
          rw [register_of_refused attempt]
          exact regular
  | unregister kind => exact isRegular_unregister regular kind

end Step

theorem isRegular_foldl (regular : registry.IsRegular) (calls : List Call) :
    (calls.foldl Call.apply registry).IsRegular := by
  induction calls generalizing registry with
  | nil => exact regular
  | cons call calls ih => exact ih (isRegular_apply regular call)

theorem isRegular_after (calls : List Call) : (after calls).IsRegular :=
  isRegular_foldl isRegular_standard calls

theorem IsRegular.lookup_iff (regular : registry.IsRegular) {key : PduKey} :
    registry.lookup key = some kind ↔ kind ∈ registry.kinds ∧ kind.key = key := by
  constructor
  · intro found
    exact lookup_eq_some found
  · rintro ⟨listed, rfl⟩
    cases found : registry.lookup kind.key with
    | none => exact absurd rfl (lookup_eq_none.mp found kind listed)
    | some owner =>
        obtain ⟨other, same⟩ := lookup_eq_some found
        rw [List.inj_on_of_nodup_map regular.unique other listed same]

theorem IsRegular.register_again (regular : registry.IsRegular)
    (owner : registry.lookup kind.key = some kind) :
    registry.register kind = (.ok (), registry) := by
  apply register_eq_ok.mpr
  exact ⟨regular.shaped kind (lookup_eq_some owner).1, Or.inr ⟨⟨kind, owner, rfl⟩, rfl⟩⟩

/-- Kinds of the right shape whose keys are free are all registered, one behind the other. -/
theorem foldl_register {kinds : List PduKind} (apart : (kinds.map PduKind.key).Nodup)
    (fresh : ∀ kind ∈ kinds, kind.header = .ofFamily kind.family ∧
      registry.lookup kind.key = none) :
    (kinds.map Call.register).foldl Call.apply registry = ⟨registry.kinds ++ kinds⟩ := by
  induction kinds generalizing registry with
  | nil =>
      rw [List.append_nil]
      rfl
  | cons kind kinds ih =>
      obtain ⟨shape, free⟩ := fresh kind List.mem_cons_self
      obtain ⟨other, apart⟩ := List.nodup_cons.mp apart
      have registered := register_eq_ok.mpr ⟨shape, Or.inl ⟨free, rfl⟩⟩
      have step : Call.apply registry (.register kind) = ⟨registry.kinds ++ [kind]⟩ := by
        rw [Call.apply, registered]
      rw [List.map_cons, List.foldl_cons, step, ih apart]
      · rw [List.append_assoc, List.singleton_append]
      · intro later listed
        obtain ⟨shape, free⟩ := fresh later (List.mem_cons_of_mem kind listed)
        refine ⟨shape, lookup_eq_none.mpr ?_⟩
        intro owner present
        rcases List.mem_append.mp present with before | new
        · exact lookup_eq_none.mp free owner before
        · rw [List.mem_singleton.mp new]
          intro same
          exact other (List.mem_map.mpr ⟨later, listed, same.symm⟩)

theorem after_append_register {calls : List Call} {kinds : List PduKind}
    (apart : (kinds.map PduKind.key).Nodup)
    (fresh : ∀ kind ∈ kinds, kind.header = .ofFamily kind.family ∧
      (after calls).lookup kind.key = none) :
    after (calls ++ kinds.map .register) = ⟨(after calls).kinds ++ kinds⟩ := by
  rw [after, List.foldl_append]
  exact foldl_register apart fresh

/-- The order does not tell: as many kinds are found by the same keys. -/
theorem lookup_perm (regular : registry.IsRegular) (other : next.IsRegular)
    (same : registry.kinds.Perm next.kinds) (key : PduKey) :
    registry.lookup key = next.lookup key := by
  apply Option.ext
  intro kind
  rw [regular.lookup_iff, other.lookup_iff, same.mem_iff]

end Registry
end Dis
