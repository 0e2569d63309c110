import Dis.Proofs.Layout.Consumption
import Dis.Wire

/-! Cursors in motion. Reading goes forward by what was read, and never changes the octets;
writing replaces as many octets as it puts down. -/

namespace Dis.Cursor

def advance (cursor : Cursor) (count : Nat) : Cursor :=
  { cursor with position := cursor.position + count }

variable {α : Type} (cursor : Cursor)

@[simp] theorem octets_advance (count : Nat) : (cursor.advance count).octets = cursor.octets := rfl

@[simp] theorem position_advance (count : Nat) :
    (cursor.advance count).position = cursor.position + count := rfl

theorem advance_advance (first second : Nat) :
    (cursor.advance first).advance second = cursor.advance (first + second) := by
  rw [advance, advance, advance, Nat.add_assoc]

theorem length_ahead : cursor.ahead.length = cursor.remaining := List.length_drop

theorem ahead_advance (count : Nat) : (cursor.advance count).ahead = cursor.ahead.drop count := by
  rw [ahead, ahead, List.drop_drop]
  rfl

theorem remaining_advance (count : Nat) :
    (cursor.advance count).remaining = cursor.remaining - count := by
  rw [← length_ahead, ← length_ahead, ahead_advance, List.length_drop]

theorem ahead_ofOctets (data : Octets) : (ofOctets data).ahead = data := rfl

theorem inside_ofParts (lead octets tail : Octets) :
    lead.length ≤ Cursor.length ⟨lead ++ octets ++ tail, lead.length⟩ := by
  rw [length, List.append_assoc, List.length_append]
  exact Nat.le_add_right _ _

theorem ahead_ofParts (lead octets tail : Octets) :
    Cursor.ahead ⟨lead ++ octets ++ tail, lead.length⟩ = octets ++ tail := by
  rw [ahead, List.append_assoc, List.drop_left]

variable {cursor}

theorem read_of_le {count : Nat} (enough : count ≤ cursor.remaining) :
    cursor.read count = (.ok (cursor.ahead.take count), cursor.advance count) := by
  have taken : (cursor.ahead.take count).length = count := by
    rw [List.length_take, length_ahead]
    omega
  rw [read, if_neg (by omega), if_neg (by omega)]
  simp only [Int.toNat_natCast, taken]
  rfl

theorem read_of_lt {count : Nat} (short : cursor.remaining < count) :
    cursor.read count = (.error (.cursorShort count cursor.position cursor.remaining), cursor) := by
  rw [read, if_neg (by omega), if_pos (by omega)]

theorem write_write (cursor : Cursor) (first second : Octets) :
    (cursor.write first).write second = cursor.write (first ++ second) := by
  rcases cursor with ⟨octets, position⟩
  simp only [write, List.length_append, Cursor.mk.injEq, ← Nat.add_assoc, and_true]
  by_cases inside : position ≤ octets.length
  · have front : (octets.take position ++ first).length = position + first.length := by
      rw [List.length_append, List.length_take, Nat.min_eq_left inside]
    rw [← front, List.take_left, List.drop_length_add_append, List.drop_drop, front]
    simp only [List.append_assoc]
  · have outside := Nat.le_of_not_le inside
    rw [List.take_of_length_le outside, List.drop_eq_nil_of_le (by omega), List.append_nil,
      List.take_of_length_le (by rw [List.length_append]; omega),
      List.drop_eq_nil_of_le (by rw [List.length_append]; omega),
      List.drop_eq_nil_of_le (by omega)]
    simp only [List.append_assoc]

theorem write_nil (cursor : Cursor) : cursor.write [] = cursor := by
  rw [write]
  simp

theorem inside_of_remaining (left : 0 < cursor.remaining) : cursor.position ≤ cursor.length := by
  rw [remaining] at left
  omega

theorem inside_advance {count : Nat} (inside : cursor.position ≤ cursor.length)
    (enough : count ≤ cursor.remaining) :
    (cursor.advance count).position ≤ (cursor.advance count).length := by
  rw [remaining] at enough
  rw [position_advance, length, octets_advance, ← length]
  omega

theorem read_of_run {reader : Reader α} {a : α} {later : Cursor}
    (ran : cursor.run reader = (.ok a, later)) : ∃ rest, reader cursor.ahead = .ok a rest := by
  unfold run at ran
  cases parsed : reader cursor.ahead with
  | ok found rest =>
      rw [parsed] at ran
      cases ran
      exact ⟨rest, rfl⟩
  | error fault rest =>
      rw [parsed] at ran
      cases ran

theorem stop_of_ahead {front rest : Octets} (inside : cursor.position ≤ cursor.length)
    (split : cursor.ahead = front ++ rest) :
    cursor.length - rest.length = cursor.position + front.length := by
  have total := cursor.length_ahead
  rw [split, List.length_append, remaining] at total
  omega

theorem run_of_ok {reader : Reader α} {front rest : Octets} {a : α}
    (inside : cursor.position ≤ cursor.length) (split : cursor.ahead = front ++ rest)
    (read : reader cursor.ahead = .ok a rest) :
    cursor.run reader = (.ok a, cursor.advance front.length) := by
  simp only [run, read, stop_of_ahead inside split]
  rfl

theorem run_of_error {reader : Reader α} {front rest : Octets} {fault : ReadError}
    (inside : cursor.position ≤ cursor.length) (split : cursor.ahead = front ++ rest)
    (stopped : reader cursor.ahead = .error fault rest) :
    cursor.run reader = (.error (.read fault), cursor.advance front.length) := by
  simp only [run, stopped, stop_of_ahead inside split]
  rfl

end Dis.Cursor

/-! What an operation does to its cursor. It moves the cursor forward over octets that are there,
or it writes at the place where the cursor stands; it does no more than that where it fails midway.
Octets that are asked for and not all there are refused, and then nothing has moved. -/

namespace Dis

namespace Cursor

variable {α : Type} {cursor middle later : Cursor}

/-- Has the cursor gone forward over octets that are there, and changed in no other way? -/
def Moves (cursor later : Cursor) : Prop :=
  ∃ count, count ≤ cursor.remaining ∧ later = cursor.advance count

section Motion

theorem Moves.refl (cursor : Cursor) : cursor.Moves cursor := ⟨0, Nat.zero_le _, rfl⟩

theorem Moves.trans (first : cursor.Moves middle) (second : middle.Moves later) :
    cursor.Moves later := by
  rcases first with ⟨front, enough, rfl⟩
  rcases second with ⟨back, more, rfl⟩
  rw [remaining_advance] at more
  exact ⟨front + back, by omega, cursor.advance_advance front back⟩

theorem Moves.octets (moves : cursor.Moves later) : later.octets = cursor.octets := by
  rcases moves with ⟨count, -, rfl⟩
  rfl

theorem Moves.inside (moves : cursor.Moves later) (inside : cursor.position ≤ cursor.length) :
    later.position ≤ later.length := by
  rcases moves with ⟨count, enough, rfl⟩
  exact inside_advance inside enough

theorem moves_read (cursor : Cursor) (size : Int) : cursor.Moves (cursor.read size).2 := by
  by_cases negative : size < 0
  · rw [read, if_pos negative]
    exact Moves.refl cursor
  · rcases Int.eq_ofNat_of_zero_le (Int.le_of_not_gt negative) with ⟨count, rfl⟩
    by_cases enough : count ≤ cursor.remaining
    · rw [read_of_le enough]
      exact ⟨count, enough, rfl⟩
    · rw [read_of_lt (Nat.lt_of_not_le enough)]
      exact Moves.refl cursor

theorem peek_eq (cursor : Cursor) (size : Int) :
    cursor.peek size = ((cursor.read size).1, cursor) := by
  by_cases negative : size < 0
  · rw [peek, read, if_pos negative]
  · rcases Int.eq_ofNat_of_zero_le (Int.le_of_not_gt negative) with ⟨count, rfl⟩
    by_cases enough : count ≤ cursor.remaining
    · have taken : (cursor.ahead.take count).length = count := by
        rw [List.length_take, length_ahead, Nat.min_eq_left enough]
      rw [peek, read_of_le enough]
      simp only [taken, position_advance, Nat.add_sub_cancel]
      rfl
    · rw [peek, read_of_lt (Nat.lt_of_not_le enough)]

theorem moves_run {reader : Reader α} (consumes : reader.Consumes)
    (inside : cursor.position ≤ cursor.length) : cursor.Moves (cursor.run reader).2 := by
  have within {front rest : Octets} (split : cursor.ahead = front ++ rest) :
      front.length ≤ cursor.remaining := by
    rw [← length_ahead, split, List.length_append]
    exact Nat.le_add_right _ _
  cases parsed : reader cursor.ahead with
  | ok a rest =>
      rcases consumes.read parsed with ⟨front, split⟩
      rw [run_of_ok inside split.symm parsed]
      exact ⟨front.length, within split.symm, rfl⟩
  | error fault rest =>
      rcases (consumes.stopped parsed).1 with ⟨front, split⟩
      rw [run_of_error inside split.symm parsed]
      exact ⟨front.length, within split.symm, rfl⟩

end Motion

section Writing

variable {octets : Octets}

theorem length_write (inside : cursor.position ≤ cursor.length) :
    (cursor.write octets).length = max cursor.length (cursor.position + octets.length) := by
  rw [length] at inside
  simp only [write, length, List.length_append, List.length_take, List.length_drop]
  omega

theorem front_write (inside : cursor.position ≤ cursor.length) :
    (cursor.write octets).octets.take cursor.position = cursor.octets.take cursor.position := by
  have front : (cursor.octets.take cursor.position).length = cursor.position := by
    rw [List.length_take]
    exact Nat.min_eq_left inside
  rw [write, List.append_assoc]
  dsimp only
  rw [List.take_append_of_le_length (Nat.le_of_eq front.symm), List.take_take, Nat.min_self]

end Writing

end Cursor

open Cursor

theorem RecordKind.moves_deserialize (kind : RecordKind) {cursor : Cursor}
    (inside : cursor.position ≤ cursor.length) : cursor.Moves (kind.deserialize cursor).2 := by
  unfold deserialize
  split
  · exact Moves.refl cursor
  · exact moves_run (kind.layout.consumes []) inside

theorem RecordKind.moves_deserializeWithLength (size : Int) (cursor : Cursor) :
    cursor.Moves (RecordKind.deserializeWithLength size cursor).2 := by
  unfold deserializeWithLength
  split
  · exact Moves.refl cursor
  · exact moves_read cursor size

theorem PduKind.moves_deserializeBody (kind : PduKind) (header : Header) (cursor : Cursor) :
    cursor.Moves (kind.deserializeBody header cursor).2 := by
  unfold deserializeBody
  split
  · exact Moves.refl cursor
  · exact moves_read cursor header.bodyLength

theorem PduKind.moves_deserialize (kind : PduKind) {cursor : Cursor}
    (inside : cursor.position ≤ cursor.length) : cursor.Moves (kind.deserialize cursor).2 := by
  have consumes : (Header.read kind.header).Consumes :=
    (kind.header.kind.layout.consumes []).map (Header.ofValue kind.header)
  have first := moves_run consumes inside
  unfold deserialize
  rcases ran : cursor.run (Header.read kind.header) with ⟨outcome, behind⟩
  rw [ran] at first
  cases outcome with
  | error e => exact first
  | ok header =>
      dsimp only
      split
      · exact first.trans (kind.moves_deserializeBody header behind)
      · exact first

theorem Wire.Kind.moves_deserialize (kind : Wire.Kind) {cursor : Cursor}
    (inside : cursor.position ≤ cursor.length) : cursor.Moves (kind.deserialize cursor).2 := by
  cases kind with
  | record kind => exact kind.moves_deserialize inside
  | header shape => exact shape.kind.moves_deserialize inside
  | pdu kind => exact kind.moves_deserialize inside

namespace Cursor

variable {cursor : Cursor}

section Operation

/-- How many octets an operation asks to find ahead, if it says. -/
def Operation.asks : Operation → Option Int
  | .read size => some size
  | .peek size => some size
  | .take size _ => some size
  | .deserializeWithLength kind size => if kind.isLengthBound then some size else none
  | _ => none

/-- What an operation puts down at the position, if it writes. -/
def Operation.puts : Operation → Option Octets
  | .write octets => some octets
  | .serialize value => some value.write.octets
  | _ => none

theorem apply_of_puts {operation : Operation} {octets : Octets}
    (puts : operation.puts = some octets) (cursor : Cursor) :
    (cursor.apply operation).2 = cursor.write octets := by
  cases operation with
  | write written =>
      cases puts
      rfl
  | serialize value =>
      cases puts
      rfl
  | _ => cases puts

theorem moves_apply {operation : Operation} (puts : operation.puts = none)
    (inside : cursor.position ≤ cursor.length) : cursor.Moves (cursor.apply operation).2 := by
  cases operation with
  | read size => exact moves_read cursor size
  | peek size =>
      rw [apply, peek_eq]
      exact Moves.refl cursor
  | take size name => exact moves_read cursor size
  | write octets => cases puts
  | contents => exact Moves.refl cursor
  | serialize value => cases puts
  | deserialize kind => exact kind.moves_deserialize inside
  | deserializeWithLength kind size =>
      rw [apply, readSized]
      split
      · exact RecordKind.moves_deserializeWithLength size cursor
      · exact Moves.refl cursor

theorem apply_cases (operation : Operation) (inside : cursor.position ≤ cursor.length) :
    cursor.Moves (cursor.apply operation).2 ∨
      ∃ octets, (cursor.apply operation).2 = cursor.write octets := by
  cases puts : operation.puts with
  | none => exact Or.inl (moves_apply puts inside)
  | some octets => exact Or.inr ⟨octets, apply_of_puts puts cursor⟩

theorem inside_apply (operation : Operation) (inside : cursor.position ≤ cursor.length) :
    (cursor.apply operation).2.position ≤ (cursor.apply operation).2.length := by
  rcases apply_cases operation inside with moves | ⟨octets, written⟩
  · exact moves.inside inside
  · rw [written, length_write inside]
    exact Nat.le_max_right _ _

theorem length_le_apply (operation : Operation) (inside : cursor.position ≤ cursor.length) :
    cursor.length ≤ (cursor.apply operation).2.length := by
  rcases apply_cases operation inside with moves | ⟨octets, written⟩
  · exact Nat.le_of_eq (congrArg List.length moves.octets).symm
  · rw [written, length_write inside]
    exact Nat.le_max_left _ _

theorem apply_read (size : Int) :
    (cursor.apply (.read size)).1 = (cursor.read size).1.map .octets :=
  rfl

/-- Who asks for octets reads them. The outcome is told from what was read, and the cursor is
where reading left it or where it was before. -/
theorem apply_of_asks {operation : Operation} {size : Int} (asks : operation.asks = some size)
    (cursor : Cursor) : ∃ grant : Octets → Outcome,
      (cursor.apply operation).1 = (cursor.read size).1.map grant ∧
        ((cursor.apply operation).2 = cursor ∨
          (cursor.apply operation).2 = (cursor.read size).2) := by
  cases operation with
  | read count =>
      cases asks
      exact ⟨.octets, rfl, Or.inr rfl⟩
  | peek count =>
      cases asks
      rw [apply, peek_eq]
      exact ⟨.octets, rfl, Or.inl rfl⟩
  | take count name =>
      cases asks
      refine ⟨fun octets => .child name (ofOctets octets), ?_, Or.inr rfl⟩
      rw [apply, take]
      rcases cursor.read size with ⟨outcome, later⟩
      cases outcome <;> rfl
  | deserializeWithLength kind count =>
      simp only [Operation.asks] at asks
      split at asks
      · next bound =>
        cases asks
        rw [apply, readSized, if_pos bound, RecordKind.deserializeWithLength]
        -- A record of no octets is not read at all, but reading none would be granted too.
        by_cases nothing : size = 0
        · subst nothing
          have granted := read_of_le (Nat.zero_le cursor.remaining)
          rw [if_pos rfl, ← Int.natCast_zero, granted]
          exact ⟨fun _ => .blob kind.name none, rfl, Or.inl rfl⟩
        · rw [if_neg nothing]
          refine ⟨fun octets => .blob kind.name (some octets), ?_, Or.inr rfl⟩
          rcases cursor.read size with ⟨outcome, later⟩
          cases outcome <;> rfl
      · cases asks
  | _ => cases asks

theorem apply_of_short {operation : Operation} {size : Nat} (asks : operation.asks = some ↑size)
    (short : cursor.remaining < size) :
    cursor.apply operation =
      (.error (.cursorShort size cursor.position cursor.remaining), cursor) := by
  rcases apply_of_asks asks cursor with ⟨grant, told, place⟩
  rw [read_of_lt short] at told place
  exact Prod.ext told (or_self_iff.mp place)

theorem apply_of_enough {operation : Operation} {size : Nat} (asks : operation.asks = some ↑size)
    (enough : size ≤ cursor.remaining) : ∃ outcome, (cursor.apply operation).1 = .ok outcome := by
  rcases apply_of_asks asks cursor with ⟨grant, told, -⟩
  rw [read_of_le enough] at told
  exact ⟨_, told⟩

theorem truncated_iff {operation : Operation} {size : Nat} (asks : operation.asks = some ↑size) :
    (∃ e, (cursor.apply operation).1 = .error e ∧ e.category = .truncated) ↔
      cursor.remaining < size ∧ Numeral.isShown size := by
  have worded : (Error.cursorShort size cursor.position cursor.remaining).category = .truncated ↔
      Numeral.isShown size := by
    rw [Error.category_eq_iff (by decide : Error.Category.truncated ≠ .value)]
    simp [Error.isWorded, Error.numbers, Error.causeCategory]
  by_cases short : cursor.remaining < size
  · rw [apply_of_short asks short, ← worded]
    constructor
    · rintro ⟨e, refused, told⟩
      cases refused
      exact ⟨short, told⟩
    · rintro ⟨-, told⟩
      exact ⟨_, rfl, told⟩
  · rcases apply_of_enough asks (Nat.le_of_not_lt short) with ⟨outcome, granted⟩
    rw [granted]
    constructor
    · rintro ⟨e, refused, -⟩
      cases refused
    · intro both
      exact absurd both.1 short

theorem category_of_short {operation : Operation} {size : Nat}
    (asks : operation.asks = some ↑size) (short : cursor.remaining < size)
    (long : ¬ Numeral.isShown size) :
    ∃ e, (cursor.apply operation).1 = .error e ∧ e.category = .value := by
  rw [apply_of_short asks short]
  refine ⟨_, rfl, ?_⟩
  simp [Error.category, Error.isWorded, Error.numbers, long]

theorem read_add_iff {first second : Nat} {octets : Octets} {later : Cursor} :
    cursor.read ↑(first + second) = (.ok octets, later) ↔
      ∃ front back middle, cursor.read first = (.ok front, middle) ∧
        middle.read second = (.ok back, later) ∧ octets = front ++ back := by
  by_cases enough : first + second ≤ cursor.remaining
  · have front := read_of_le (Nat.le_of_add_right_le enough)
    have left : second ≤ (cursor.advance first).remaining := by
      rw [remaining_advance]
      omega
    have back := read_of_le left
    rw [ahead_advance, advance_advance] at back
    rw [read_of_le enough, front]
    constructor
    · intro both
      cases both
      exact ⟨_, _, _, rfl, back, List.take_add⟩
    · rintro ⟨_, _, _, one, two, rfl⟩
      cases one
      rw [back] at two
      cases two
      rw [List.take_add]
  · rw [read_of_lt (Nat.lt_of_not_le enough)]
    constructor
    · intro both
      cases both
    · rintro ⟨front, back, middle, one, two, -⟩
      by_cases begun : first ≤ cursor.remaining
      · rw [read_of_le begun] at one
        cases one
        have short : (cursor.advance first).remaining < second := by
          rw [remaining_advance]
          omega
        rw [read_of_lt short] at two
        cases two
      · rw [read_of_lt (Nat.lt_of_not_le begun)] at one
        cases one

theorem apply_granted {size : Nat} (enough : size ≤ cursor.remaining) :
    cursor.apply (.read size) =
        (.ok (.octets (cursor.ahead.take size)), cursor.advance size) ∧
      (∀ name, cursor.apply (.take size name) =
        (.ok (.child name (ofOctets (cursor.ahead.take size))), cursor.advance size)) ∧
      ∀ kind : Wire.Kind, kind.isLengthBound → size ≠ 0 →
        cursor.apply (.deserializeWithLength kind size) =
          (.ok (.blob kind.name (some (cursor.ahead.take size))), cursor.advance size) := by
  have granted := read_of_le enough
  refine ⟨?_, ?_, ?_⟩
  · rw [apply, granted]
    rfl
  · intro name
    rw [apply, take, granted]
    rfl
  · intro kind bound present
    have nonzero : (size : Int) ≠ 0 := by omega
    rw [apply, readSized, if_pos bound, RecordKind.deserializeWithLength, if_neg nonzero, granted]
    rfl

theorem map_ne_child {name : String} {child : Cursor} {f : α → Outcome} (result : Except Error α)
    (plain : ∀ a, f a ≠ .child name child) : result.map f ≠ .ok (.child name child) := by
  cases result with
  | error e => exact nofun
  | ok a =>
      intro same
      exact plain a (Except.ok.inj same)

theorem eq_take_of_child {operation : Operation} {name : String} {child : Cursor}
    (given : (cursor.apply operation).1 = .ok (.child name child)) :
    ∃ size octets, operation = .take size name ∧ child = ofOctets octets := by
  cases operation with
  | take size other =>
      have taken : ((cursor.read size).1.map ofOctets).map (Outcome.child other) =
          .ok (Outcome.child name child) := given
      cases result : (cursor.read size).1 with
      | error e =>
          rw [result] at taken
          cases taken
      | ok octets =>
          rw [result] at taken
          cases taken
          exact ⟨size, octets, rfl, rfl⟩
  | read size => exact absurd given (map_ne_child _ fun _ => nofun)
  | peek size => exact absurd given (map_ne_child _ fun _ => nofun)
  | write octets => cases given
  | contents => cases given
  | serialize value => exact absurd given (map_ne_child _ fun _ => nofun)
  | deserialize kind => exact absurd given (map_ne_child _ fun _ => nofun)
  | deserializeWithLength kind size =>
      rw [apply, readSized] at given
      split at given
      · exact absurd given (map_ne_child _ fun _ => nofun)
      · cases given

/-- The cursor behind operations on it, whatever each of them comes to. -/
def behind (cursor : Cursor) (operations : List Operation) : Cursor :=
  operations.foldl (fun cursor operation => (cursor.apply operation).2) cursor

theorem length_le_behind (inside : cursor.position ≤ cursor.length) (operations : List Operation) :
    cursor.length ≤ (cursor.behind operations).length := by
  induction operations generalizing cursor with
  | nil => exact Nat.le_refl _
  | cons operation rest ih =>
      exact Nat.le_trans (length_le_apply operation inside) (ih (inside_apply operation inside))

end Operation

end Cursor
end Dis
