import Dis.Proofs.BitField
import Dis.Proofs.Numeric.Exact

/-! Spans of encoded octets, by what re-encoding does to them. A run of spans covers
the octets of a record from the front, each span as many as it is wide. -/

namespace Dis

inductive Span where
  -- Octets that stand for themselves.
  | plain (width : Nat)
  | padding (width : Nat)
  | word (width : Nat) (fields : List BitField)
  | code (e : Enumeration) (format : IntFormat)
  | float (format : FloatFormat)

namespace Span

def width : Span → Nat
  | plain width => width
  | padding width => width
  | word width _ => width
  | code _ format => format.width
  | float format => format.width

def quiet (octets : Octets) : Octets :=
  Octets.ofNat 4 (Binary32.quiet ⟨UInt32.ofNat (Octets.toNat octets)⟩).bits.toNat

/-- What decoding and encoding again makes of the octets: padding and gaps become zero,
a number that no catalogue knows becomes the first member's, and a single that is not a
number becomes quiet. -/
def settle : Span → Octets → Octets
  | padding width, _ => Octets.zeros width
  | word width fields, octets =>
    Octets.ofNat width (BitFields.settle fields (Octets.toNat octets))
  | code e format, octets =>
    if e.Knows (format.ofOctets octets) then octets else format.octets e.fallback.2
  | float .single, octets => quiet octets
  | _, octets => octets

/-- The octets without what stands in padding and in gaps. -/
def blank : Span → Octets → Octets
  | padding width, _ => Octets.zeros width
  | word width fields, octets =>
    Octets.ofNat width (BitFields.blank fields (Octets.toNat octets))
  | _, octets => octets

/-- Zero padding and gaps, catalogued numbers, and no NaN. -/
def IsCanonical : Span → Octets → Prop
  | padding width, octets => octets = Octets.zeros width
  | word _ fields, octets =>
    Octets.toNat octets < 2 ^ BitFields.width fields ∧
      BitFields.IsCanonical fields (Octets.toNat octets)
  | code e format, octets => e.Knows (format.ofOctets octets)
  | float format, octets => (format.ofOctets octets).isNaN = false
  | plain _, _ => True

theorem quiet_of_number (octets : Octets) (size : octets.length = 4)
    (number : (FloatFormat.single.ofOctets octets).isNaN = false) : quiet octets = octets := by
  have small : Octets.toNat octets < 2 ^ 32 := by simpa [size] using octets.toNat_lt
  have finite := Binary32.quiet_of_number _ number
  rw [quiet, finite, UInt32.toNat_ofNat', Nat.mod_eq_of_lt small, ← size, Octets.ofNat_toNat]

theorem settle_of_canonical (span : Span) (octets : Octets) (size : octets.length = span.width)
    (canonical : span.IsCanonical octets) : span.settle octets = octets := by
  cases span with
  | plain width => rfl
  | padding width => exact canonical.symm
  | word width fields =>
      obtain ⟨below, gaps⟩ := canonical
      change octets.length = width at size
      rw [settle, BitFields.settle_of_canonical _ _ gaps, Nat.mod_eq_of_lt below, ← size,
        Octets.ofNat_toNat]
  | code e format => exact if_pos canonical
  | float format =>
      cases format with
      | single => exact quiet_of_number octets size canonical
      | double => rfl
      | fixedPoint => rfl

def extent (spans : List Span) : Nat := (spans.map width).sum

def mapAlong (change : Span → Octets → Octets) : List Span → Octets → Octets
  | [], _ => []
  | span :: rest, octets =>
    change span (octets.take span.width) ++ mapAlong change rest (octets.drop span.width)

def Along (holds : Span → Octets → Prop) : List Span → Octets → Prop
  | [], _ => True
  | span :: rest, octets =>
    holds span (octets.take span.width) ∧ Along holds rest (octets.drop span.width)

@[simp] theorem extent_nil : extent [] = 0 := rfl

@[simp] theorem extent_cons (span : Span) (rest : List Span) :
    extent (span :: rest) = span.width + extent rest := by
  simp [extent]

@[simp] theorem extent_append (first second : List Span) :
    extent (first ++ second) = extent first + extent second := by
  simp [extent]

section Over

variable (change : Span → Octets → Octets)

theorem mapAlong_append (first second : List Span) (front back : Octets)
    (size : front.length = extent first) :
    mapAlong change (first ++ second) (front ++ back) =
      mapAlong change first front ++ mapAlong change second back := by
  induction first generalizing front with
  | nil =>
      obtain rfl := List.eq_nil_of_length_eq_zero size
      rfl
  | cons span rest ih =>
      rw [extent_cons] at size
      have enough : span.width ≤ front.length := by omega
      simp only [List.cons_append, mapAlong]
      rw [List.take_append_of_le_length enough, List.drop_append_of_le_length enough,
        ih _ (by rw [List.length_drop]; omega), List.append_assoc]

theorem mapAlong_singleton (span : Span) (octets : Octets) (size : octets.length = span.width) :
    mapAlong change [span] octets = change span octets := by
  rw [mapAlong, mapAlong, List.append_nil, ← size, List.take_length]

end Over

theorem length_blank (span : Span) (octets : Octets) (size : octets.length = span.width) :
    (span.blank octets).length = span.width := by
  cases span with
  | padding width => exact Octets.length_zeros width
  | word width fields => exact Octets.length_ofNat width _
  | plain width => exact size
  | code e format => exact size
  | float format => exact size

theorem length_settle (span : Span) (octets : Octets) (size : octets.length = span.width) :
    (span.settle octets).length = span.width := by
  cases span with
  | padding width => exact Octets.length_zeros width
  | word width fields => exact Octets.length_ofNat width _
  | plain width => exact size
  | code e format =>
      rw [settle]
      split
      · exact size
      · exact format.length_octets _
  | float format =>
      cases format with
      | single => exact Octets.length_ofNat 4 _
      | double => exact size
      | fixedPoint => exact size

theorem length_mapAlong {change : Span → Octets → Octets}
    (keeps : ∀ span octets, octets.length = span.width → (change span octets).length = span.width)
    (spans : List Span) (octets : Octets) (size : octets.length = extent spans) :
    (mapAlong change spans octets).length = extent spans := by
  induction spans generalizing octets with
  | nil => rfl
  | cons span rest ih =>
      rw [extent_cons] at size ⊢
      rw [mapAlong, List.length_append, keeps _ _ (by rw [List.length_take]; omega),
        ih _ (by rw [List.length_drop]; omega)]

/-- Do the octets differ in padding and gaps only? -/
structure Alike (spans : List Span) (octets other : Octets) : Prop where
  size : other.length = octets.length
  rest : mapAlong blank spans other = mapAlong blank spans octets

theorem alike_append {first second : List Span} {front back other : Octets}
    (size : front.length = extent first) (total : back.length = extent second)
    (alike : Alike (first ++ second) (front ++ back) other) :
    ∃ front' back', other = front' ++ back' ∧ Alike first front front' ∧
      Alike second back back' := by
  have length := alike.size
  rw [List.length_append] at length
  have split := List.take_append_drop front.length other
  have size' : (other.take front.length).length = front.length := by
    rw [List.length_take]
    omega
  have total' : (other.drop front.length).length = back.length := by
    rw [List.length_drop]
    omega
  have same := alike.rest
  rw [← split, mapAlong_append _ _ _ _ _ (size'.trans size), mapAlong_append _ _ _ _ _ size] at same
  have lengths := length_mapAlong length_blank first _ (size'.trans size)
  rw [← length_mapAlong length_blank first _ size] at lengths
  obtain ⟨fronts, backs⟩ := List.append_inj same lengths
  exact ⟨_, _, split.symm, ⟨size', fronts⟩, ⟨total', backs⟩⟩

theorem Alike.eq {span : Span} {octets other : Octets} (alike : Alike [span] octets other)
    (plain : ∀ octets, span.blank octets = octets) (size : octets.length = span.width) :
    other = octets := by
  have same := alike.rest
  rwa [mapAlong_singleton _ _ _ (alike.size.trans size), mapAlong_singleton _ _ _ size, plain,
    plain] at same

theorem settle_of_along (spans : List Span) (octets : Octets) (size : octets.length = extent spans)
    (canonical : Along IsCanonical spans octets) : mapAlong settle spans octets = octets := by
  induction spans generalizing octets with
  | nil => exact (List.eq_nil_of_length_eq_zero size).symm
  | cons span rest ih =>
      rw [extent_cons] at size
      rw [mapAlong, settle_of_canonical _ _ (by rw [List.length_take]; omega) canonical.1,
        ih _ (by rw [List.length_drop]; omega) canonical.2, List.take_append_drop]

end Span

/-! What a reader and a writer make of each other's work. Both laws hold of a sequence
if they hold of its parts, so layouts need one case for each kind of member only. A
reader that takes all that is left may stand at the end only. -/

variable {α β γ : Type}

def Returns (reader : Reader α) (written : Written) (isBounded : Bool) (value : α) : Prop :=
  ∀ octets, written = ⟨octets, none⟩ → ∀ more, isBounded ∨ more = [] →
    reader (octets ++ more) = .ok value more

/-- Octets from which the reader took the value: how many they are, what writing the
value makes of them, and that padding and gaps do not matter to the reader. -/
structure Recovers (reader : Reader α) (spans : List Span) (written : Written)
    (isBounded : Bool) (value : α) (octets : Octets) : Prop where
  size : octets.length = Span.extent spans
  written : written = ⟨Span.mapAlong Span.settle spans octets, none⟩
  reads : ∀ other, Span.Alike spans octets other → ∀ more, isBounded ∨ more = [] →
    reader (other ++ more) = .ok value more

namespace Returns

variable {reader : Reader α} {written : Written} {bounded : Bool} {a : α}

theorem named (name : String) (returns : Returns reader written bounded a) :
    Returns reader (written.under name) bounded a := by
  intro octets complete
  exact returns octets (Written.under_eq_complete.mp complete)

theorem weaken {weaker : Bool} (returns : Returns reader written bounded a)
    (enough : weaker → bounded) : Returns reader written weaker a := by
  intro octets complete more ends
  exact returns octets complete more (ends.imp_left enough)

theorem map (f : α → β) (returns : Returns reader written bounded a) :
    Returns (reader >>= fun a => pure (f a)) written bounded (f a) := by
  intro octets complete more ends
  exact Reader.bind_eq_ok.mpr ⟨a, more, returns octets complete more ends, rfl⟩

theorem skip (count : Nat) : Returns (Reader.skip count) ⟨Octets.zeros count, none⟩ true () := by
  intro octets complete more _
  cases complete
  exact Reader.skip_eq_ok.mpr ⟨_, rfl, Octets.length_zeros count⟩

-- What follows a reader that takes everything must be empty.
theorem andThen {later : Reader β} {tail : Written} {bounded' : Bool} {b : β} {whole : Reader γ}
    {c : γ} (first : Returns reader written bounded a) (second : Returns later tail bounded' b)
    (stops : bounded ∨ ∀ back, tail = ⟨back, none⟩ → back = [])
    (reads : ∀ {input middle left}, reader input = .ok a middle → later middle = .ok b left →
      whole input = .ok c left) :
    Returns whole (written ++ tail) (bounded && bounded') c := by
  intro octets complete more ends
  obtain ⟨front, back, head, last, rfl⟩ := Written.append_eq_complete.mp complete
  rw [Bool.and_eq_true] at ends
  -- The first reader stops by itself, or the second one has nothing to read.
  have leading : bounded ∨ back ++ more = [] := by
    rcases stops with stops | stops
    · exact Or.inl stops
    · rw [stops back last]
      exact ends.imp_left And.left
  rw [List.append_assoc]
  exact reads (first front head _ leading) (second back last more (ends.imp_left And.right))

theorem many {write : α → Written} {value : α → α}
    (xs : List α) (each : ∀ x ∈ xs, Returns reader (write x) true (value x)) :
    Returns (Reader.many xs.length reader) (Written.all write xs) true (xs.map value) := by
  intro octets complete more _
  induction xs generalizing octets with
  | nil =>
      obtain rfl := Written.all_nil_eq_complete.mp complete
      exact Reader.many_zero_eq_ok.mpr ⟨rfl, rfl⟩
  | cons x rest ih =>
      obtain ⟨front, back, head, tail, rfl⟩ := Written.all_cons_eq_complete.mp complete
      rw [List.append_assoc]
      refine Reader.many_succ_eq_ok.mpr ⟨value x, rest.map value, back ++ more, ?_, ?_, rfl⟩
      · exact each x List.mem_cons_self front head _ (Or.inl rfl)
      · exact ih (fun y member => each y (List.mem_cons_of_mem x member)) back tail

end Returns

namespace Recovers

variable {reader : Reader α} {spans : List Span} {written : Written} {bounded : Bool} {a : α}
variable {octets : Octets}

theorem named (name : String) (recovers : Recovers reader spans written bounded a octets) :
    Recovers reader spans (written.under name) bounded a octets :=
  { recovers with written := Written.under_eq_complete.mpr recovers.written }

theorem weaken {weaker : Bool} (recovers : Recovers reader spans written bounded a octets)
    (enough : weaker → bounded) : Recovers reader spans written weaker a octets :=
  { recovers with
    reads := fun other alike more ends =>
      recovers.reads other alike more (ends.imp_left enough) }

theorem map (f : α → β) (recovers : Recovers reader spans written bounded a octets) :
    Recovers (reader >>= fun a => pure (f a)) spans written bounded (f a) octets where
  size := recovers.size
  written := recovers.written
  reads other alike more ends :=
    Reader.bind_eq_ok.mpr ⟨a, more, recovers.reads other alike more ends, rfl⟩

theorem skip {count : Nat} (size : octets.length = count) :
    Recovers (Reader.skip count) [.padding count] ⟨Octets.zeros count, none⟩ true () octets where
  size := size
  written := by
    rw [Span.mapAlong_singleton _ _ _ size]
    rfl
  reads other alike more _ := Reader.skip_eq_ok.mpr ⟨other, rfl, alike.size.trans size⟩

theorem andThen {later : Reader β} {spans' : List Span} {tail : Written} {bounded' : Bool} {b : β}
    {front back : Octets} {whole : Reader γ} {c : γ}
    (first : Recovers reader spans written bounded a front)
    (second : Recovers later spans' tail bounded' b back) (stops : bounded ∨ back = [])
    (reads : ∀ {input middle left}, reader input = .ok a middle → later middle = .ok b left →
      whole input = .ok c left) :
    Recovers whole (spans ++ spans') (written ++ tail) (bounded && bounded') c (front ++ back) where
  size := by rw [List.length_append, first.size, second.size, Span.extent_append]
  written := by
    rw [Span.mapAlong_append _ _ _ _ _ first.size]
    exact Written.append_eq_complete.mpr ⟨_, _, first.written, second.written, rfl⟩
  reads other alike more ends := by
    obtain ⟨front', back', rfl, heads, tails⟩ := Span.alike_append first.size second.size alike
    rw [Bool.and_eq_true] at ends
    have leading : bounded ∨ back' ++ more = [] := by
      rcases stops with stops | rfl
      · exact Or.inl stops
      · rw [List.eq_nil_of_length_eq_zero tails.size]
        exact ends.imp_left And.left
    rw [List.append_assoc]
    exact reads (first.reads front' heads _ leading)
      (second.reads back' tails more (ends.imp_left And.right))

theorem many {write : α → Written} {spansOf : α → List Span} {xs : List α} {count : Nat}
    {input rest : Octets} (read : Reader.many count reader input = .ok xs rest)
    (each : ∀ x input rest, reader input = .ok x rest →
      ∃ octets, input = octets ++ rest ∧ Recovers reader (spansOf x) (write x) true x octets) :
    ∃ octets, input = octets ++ rest ∧
      Recovers (Reader.many count reader) (xs.flatMap spansOf) (Written.all write xs) true xs
        octets := by
  induction count generalizing xs input with
  | zero =>
      obtain ⟨rfl, rfl⟩ := Reader.many_zero_eq_ok.mp read
      refine ⟨[], rfl, rfl, rfl, fun other alike more _ => ?_⟩
      rw [List.eq_nil_of_length_eq_zero alike.size]
      exact Reader.many_zero_eq_ok.mpr ⟨rfl, rfl⟩
  | succ count ih =>
      obtain ⟨x, tail, middle, first, later, rfl⟩ := Reader.many_succ_eq_ok.mp read
      obtain ⟨front, rfl, head⟩ := each x _ _ first
      obtain ⟨back, rfl, tails⟩ := ih later
      refine ⟨front ++ back, (List.append_assoc ..).symm, ?_, ?_, ?_⟩
      · rw [List.flatMap_cons, Span.extent_append, List.length_append, head.size, tails.size]
      · rw [List.flatMap_cons, Span.mapAlong_append _ _ _ _ _ head.size]
        exact Written.all_cons_eq_complete.mpr ⟨_, _, head.written, tails.written, rfl⟩
      · intro other alike more _
        rw [List.flatMap_cons] at alike
        obtain ⟨front', back', rfl, heads, tails'⟩ := Span.alike_append head.size tails.size alike
        rw [List.append_assoc]
        exact Reader.many_succ_eq_ok.mpr ⟨x, tail, back' ++ more,
          head.reads front' heads _ (Or.inl rfl), tails.reads back' tails' more (Or.inl rfl), rfl⟩

theorem of_plain {span : Span} {written : Written} (plain : ∀ octets, span.blank octets = octets)
    (size : octets.length = span.width) (settled : written = ⟨span.settle octets, none⟩)
    (reads : ∀ more, reader (octets ++ more) = .ok a more) :
    Recovers reader [span] written true a octets where
  size := by rw [Span.extent_cons, Span.extent_nil, Nat.add_zero, size]
  written := by rw [Span.mapAlong_singleton _ _ _ size, settled]
  reads other alike more _ := by
    rw [alike.eq plain size]
    exact reads more

end Recovers

namespace IntFormat

variable {format : IntFormat} {n : Int} {input rest : Octets}

theorem returns (format : IntFormat) (n : Int) : Returns format.read (format.write n) true n := by
  intro octets written more _
  obtain ⟨holds, rfl⟩ := write_eq_complete.mp written
  exact read_eq_ok.mpr ⟨_, rfl, format.length_octets n, (format.ofOctets_octets n holds).symm⟩

theorem recovers (read : format.read input = .ok n rest) :
    ∃ octets, input = octets ++ rest ∧
      Recovers format.read [.plain format.width] (format.write n) true n octets := by
  obtain ⟨octets, rfl, size, rfl⟩ := read_eq_ok.mp read
  refine ⟨octets, rfl, .of_plain (fun _ => rfl) size (write_eq_complete.mpr ?_) fun more => ?_⟩
  · exact ⟨format.holds_ofOctets octets size, (format.octets_ofOctets octets size).symm⟩
  · exact read_eq_ok.mpr ⟨octets, rfl, size, rfl⟩

/-- What is written back is the number of the member that stands for the one read. -/
theorem recovers_code {e : Enumeration} (fallback : format.Holds e.fallback.2)
    (read : format.read input = .ok n rest) :
    ∃ octets, input = octets ++ rest ∧
      Recovers format.read [.code e format] (format.write (e.decode n).number) true n octets := by
  obtain ⟨octets, rfl, size, rfl⟩ := read_eq_ok.mp read
  refine ⟨octets, rfl, .of_plain (fun _ => rfl) size (write_eq_complete.mpr ?_) fun more => ?_⟩
  · rw [e.number_decode, Span.settle]
    split
    · exact ⟨format.holds_ofOctets octets size, (format.octets_ofOctets octets size).symm⟩
    · exact ⟨fallback, rfl⟩
  · exact read_eq_ok.mpr ⟨octets, rfl, size, rfl⟩

end IntFormat

namespace Reader

theorem recovers_take {count : Nat} {front : Octets} (size : front.length = count) :
    Recovers (take count) [.plain front.length] ⟨front, none⟩ true front front :=
  .of_plain (fun _ => rfl) rfl rfl fun _ => take_eq_ok.mpr ⟨rfl, size⟩

theorem recovers_takeAll (all : Octets) :
    Recovers takeAll [.plain all.length] ⟨all, none⟩ false all all where
  size := rfl
  written := by
    rw [Span.mapAlong_singleton _ _ _ rfl]
    rfl
  reads other alike more ends := by
    have none : more = [] := by simpa using ends
    rw [alike.eq (fun _ => rfl) rfl, none, List.append_nil]
    rfl

end Reader
end Dis
