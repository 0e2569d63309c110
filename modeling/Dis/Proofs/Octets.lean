import Dis.Layout.Member
import Mathlib.Data.List.Induction

/-! Octets of a width and the numbers below its modulus name each other. -/

namespace Dis.Octets

theorem toNat_lt (octets : Octets) : toNat octets < 256 ^ octets.length := by
  induction octets using List.reverseRecOn with
  | nil => simp [toNat]
  | append_singleton front octet ih =>
      have low := octet.toNat_lt
      rw [toNat_append_singleton, List.length_append, List.length_singleton, Nat.pow_succ]
      omega

theorem ofNat_toNat (octets : Octets) : ofNat octets.length (toNat octets) = octets := by
  induction octets using List.reverseRecOn with
  | nil => rfl
  | append_singleton front octet ih =>
      have low := octet.toNat_lt
      have quotient : (toNat front * 256 + octet.toNat) / 256 = toNat front := by omega
      rw [toNat_append_singleton, List.length_append, List.length_singleton, ofNat, quotient, ih]
      congr
      rw [← UInt8.toNat_inj, UInt8.toNat_ofNat']
      omega

theorem toNat_ofNat_of_lt (width n : Nat) (small : n < 256 ^ width) :
    toNat (ofNat width n) = n := by
  rw [toNat_ofNat, Nat.mod_eq_of_lt small]

end Dis.Octets

/-! When a reader succeeds. One statement for each way of building readers says what
it read and what it left, so that proofs about layouts never open the readers. -/

namespace Dis.Reader

variable {α β : Type}

theorem bind_eq_ok {reader : Reader α} {next : α → Reader β} {input rest : Octets} {b : β} :
    (reader >>= next) input = .ok b rest ↔
      ∃ a middle, reader input = .ok a middle ∧ next a middle = .ok b rest := by
  change EStateM.bind reader next input = _ ↔ _
  unfold EStateM.bind
  cases reader input with
  | ok a middle =>
      constructor
      · exact fun later => ⟨a, middle, rfl, later⟩
      · rintro ⟨_, _, read, later⟩
        cases read
        exact later
  | error fault left => simp

theorem pure_eq_ok {a b : α} {input rest : Octets} :
    (pure a : Reader α) input = .ok b rest ↔ a = b ∧ input = rest := by
  change EStateM.Result.ok a input = _ ↔ _
  simp

theorem map_eq_ok {reader : Reader α} {f : α → β} {input rest : Octets} {b : β} :
    (f <$> reader) input = .ok b rest ↔ ∃ a, reader input = .ok a rest ∧ f a = b := by
  change EStateM.map f reader input = _ ↔ _
  unfold EStateM.map
  cases reader input with
  | ok a middle =>
      constructor
      · intro mapped
        cases mapped
        exact ⟨a, rfl, rfl⟩
      · rintro ⟨_, read, rfl⟩
        cases read
        rfl
  | error fault left => simp

theorem under_eq_ok {name : String} {reader : Reader α} {input rest : Octets} {a : α} :
    reader.under name input = .ok a rest ↔ reader input = .ok a rest := by
  unfold under EStateM.adaptExcept
  cases reader input with
  | ok a middle => simp
  | error fault left => simp

theorem take_eq_ok {count : Nat} {input rest front : Octets} :
    take count input = .ok front rest ↔ input = front ++ rest ∧ front.length = count := by
  simp only [take]
  split
  · next enough =>
    constructor
    · intro taken
      injection taken with first second
      subst first second
      exact ⟨(List.take_append_drop count input).symm, enough⟩
    · rintro ⟨rfl, rfl⟩
      simp
  · next short =>
    simp only [reduceCtorEq, false_iff, not_and]
    rintro rfl rfl
    simp at short

def skip (count : Nat) : Reader Unit := take count >>= fun _ => pure ()

theorem skip_eq_ok {count : Nat} {input rest : Octets} {u : Unit} :
    skip count input = .ok u rest ↔ ∃ front, input = front ++ rest ∧ front.length = count := by
  simp only [skip, bind_eq_ok, take_eq_ok, pure_eq_ok]
  constructor
  · rintro ⟨front, middle, ⟨rfl, size⟩, -, rfl⟩
    exact ⟨front, rfl, size⟩
  · rintro ⟨front, rfl, size⟩
    exact ⟨front, rest, ⟨rfl, size⟩, trivial, rfl⟩

theorem takeAll_eq_ok {input rest all : Octets} :
    takeAll input = .ok all rest ↔ all = input ∧ rest = [] := by
  simp [takeAll, eq_comm]

theorem fail_ne_ok {fault : ReadFault} {input rest : Octets} {a : α} :
    (fail fault : Reader α) input ≠ .ok a rest := by
  intro failed
  cases failed

theorem manyOnto_eq_ok {reader : Reader α} {done xs : List α} {count : Nat}
    {input rest : Octets} :
    manyOnto reader done count input = .ok xs rest ↔
      ∃ ys, many count reader input = .ok ys rest ∧ xs = done.reverse ++ ys := by
  induction count generalizing done input xs with
  | zero =>
      simp only [many, manyOnto, pure_eq_ok, List.reverse_nil]
      constructor
      · rintro ⟨rfl, rfl⟩
        exact ⟨[], ⟨rfl, rfl⟩, by simp⟩
      · rintro ⟨_, ⟨rfl, rfl⟩, rfl⟩
        simp
  | succ count ih =>
      simp only [many, manyOnto, bind_eq_ok]
      constructor
      · rintro ⟨x, middle, first, later⟩
        obtain ⟨ys, read, rfl⟩ := ih.mp later
        exact ⟨x :: ys, ⟨x, middle, first, ih.mpr ⟨ys, read, rfl⟩⟩, by simp⟩
      · rintro ⟨ys, ⟨x, middle, first, later⟩, rfl⟩
        obtain ⟨tail, read, rfl⟩ := ih.mp later
        exact ⟨x, middle, first, ih.mpr ⟨tail, read, by simp⟩⟩

theorem many_zero_eq_ok {reader : Reader α} {xs : List α} {input rest : Octets} :
    many 0 reader input = .ok xs rest ↔ xs = [] ∧ input = rest := by
  simp [many, manyOnto, pure_eq_ok, eq_comm]

theorem many_succ_eq_ok {reader : Reader α} {xs : List α} {count : Nat} {input rest : Octets} :
    many (count + 1) reader input = .ok xs rest ↔
      ∃ x tail middle, reader input = .ok x middle ∧ many count reader middle = .ok tail rest ∧
        xs = x :: tail := by
  rw [many, manyOnto, bind_eq_ok]
  constructor
  · rintro ⟨x, middle, first, later⟩
    obtain ⟨tail, read, rfl⟩ := manyOnto_eq_ok.mp later
    exact ⟨x, tail, middle, first, read, rfl⟩
  · rintro ⟨x, tail, middle, first, read, rfl⟩
    exact ⟨x, middle, first, manyOnto_eq_ok.mpr ⟨tail, read, rfl⟩⟩

theorem length_of_many {reader : Reader α} {xs : List α} {count : Nat} {input rest : Octets}
    (read : many count reader input = .ok xs rest) : xs.length = count := by
  induction count generalizing xs input with
  | zero => rw [(many_zero_eq_ok.mp read).1, List.length_nil]
  | succ count ih =>
      obtain ⟨x, tail, middle, _, later, rfl⟩ := many_succ_eq_ok.mp read
      rw [List.length_cons, ih later]

theorem forall_of_many {reader : Reader α} {P : α → Prop} {xs : List α} {count : Nat}
    {input rest : Octets} (each : ∀ x input rest, reader input = .ok x rest → P x)
    (read : many count reader input = .ok xs rest) : ∀ x ∈ xs, P x := by
  induction count generalizing xs input with
  | zero => simp [(many_zero_eq_ok.mp read).1]
  | succ count ih =>
      obtain ⟨x, tail, middle, first, later, rfl⟩ := many_succ_eq_ok.mp read
      intro y listed
      rcases List.mem_cons.mp listed with rfl | listed
      · exact each _ _ _ first
      · exact ih later y listed

end Dis.Reader

/-! When a writing is complete: each part is, and the octets are those of the parts. -/

namespace Dis.Written

variable {α : Type}

theorem empty_eq_complete {octets : Octets} : empty = ⟨octets, none⟩ ↔ octets = [] := by
  simp [empty, eq_comm]

theorem mk_eq_complete {written octets : Octets} :
    (⟨written, none⟩ : Written) = ⟨octets, none⟩ ↔ written = octets := by
  simp

theorem fail_ne_complete {fault : WriteFault} {octets : Octets} : fail fault ≠ ⟨octets, none⟩ := by
  simp [fail]

theorem append_eq_complete {first second : Written} {octets : Octets} :
    first ++ second = ⟨octets, none⟩ ↔
      ∃ front back, first = ⟨front, none⟩ ∧ second = ⟨back, none⟩ ∧ octets = front ++ back := by
  obtain ⟨front, fault⟩ := first
  obtain ⟨back, later⟩ := second
  change append ⟨front, fault⟩ ⟨back, later⟩ = _ ↔ _
  cases fault with
  | none => simp [append]; grind
  | some fault => simp [append]

theorem append_empty (written : Written) : written ++ empty = written := by
  obtain ⟨octets, fault⟩ := written
  cases fault with
  | none => exact congrArg (Written.mk · none) (List.append_nil octets)
  | some fault => rfl

theorem under_eq_complete {name : String} {written : Written} {octets : Octets} :
    written.under name = ⟨octets, none⟩ ↔ written = ⟨octets, none⟩ := by
  obtain ⟨front, fault⟩ := written
  cases fault <;> simp [under]

theorem ofExcept_eq_complete {written : Except WriteFault Octets} {octets : Octets} :
    ofExcept written = ⟨octets, none⟩ ↔ written = .ok octets := by
  cases written <;> simp [ofExcept, fail]

theorem complete_eq_ok {written : Written} {octets : Octets} :
    written.complete = .ok octets ↔ written = ⟨octets, none⟩ := by
  obtain ⟨front, fault⟩ := written
  cases fault <;> simp [complete]

theorem complete_eq_error {written : Written} {fault : WriteError} :
    written.complete = .error fault ↔ written.fault = some fault := by
  obtain ⟨front, found⟩ := written
  cases found <;> simp [complete]

theorem fault_append (first second : Written) :
    (first ++ second).fault = first.fault.or second.fault := by
  obtain ⟨front, fault⟩ := first
  cases fault <;> rfl

theorem exists_complete {written : Written} :
    (∃ octets, written = ⟨octets, none⟩) ↔ written.fault = none := by
  obtain ⟨octets, fault⟩ := written
  simp

theorem fault_append_eq_none {first second : Written} :
    (first ++ second).fault = none ↔ first.fault = none ∧ second.fault = none := by
  rw [fault_append, Option.or_eq_none_iff]

theorem fault_under_eq_none {name : String} {written : Written} :
    (written.under name).fault = none ↔ written.fault = none :=
  Option.map_eq_none_iff

theorem fault_ofExcept_eq_none {written : Except WriteFault Octets} :
    (ofExcept written).fault = none ↔ ∃ octets, written = .ok octets := by
  cases written <;> simp [ofExcept, fail]

def all (write : α → Written) (xs : List α) : Written :=
  xs.foldr (fun x written => write x ++ written) .empty

theorem all_nil_eq_complete {write : α → Written} {octets : Octets} :
    all write [] = ⟨octets, none⟩ ↔ octets = [] :=
  empty_eq_complete

theorem all_cons_eq_complete {write : α → Written} {x : α} {xs : List α} {octets : Octets} :
    all write (x :: xs) = ⟨octets, none⟩ ↔
      ∃ front back, write x = ⟨front, none⟩ ∧ all write xs = ⟨back, none⟩ ∧
        octets = front ++ back :=
  append_eq_complete

theorem fault_all_eq_none {write : α → Written} {xs : List α} :
    (all write xs).fault = none ↔ ∀ x ∈ xs, (write x).fault = none := by
  induction xs with
  | nil => simp [all, empty]
  | cons x rest ih =>
      rw [List.forall_mem_cons, ← ih]
      exact fault_append_eq_none

theorem forall_of_all {write : α → Written} {P : α → Prop} {xs : List α} {octets : Octets}
    (each : ∀ x front, write x = ⟨front, none⟩ → P x) (written : all write xs = ⟨octets, none⟩) :
    ∀ x ∈ xs, P x := by
  induction xs generalizing octets with
  | nil => simp
  | cons x rest ih =>
      obtain ⟨front, back, head, tail, -⟩ := all_cons_eq_complete.mp written
      exact List.forall_mem_cons.mpr ⟨each x front head, ih tail⟩

theorem sum_of_all {write : α → Written} {size : α → Int} {xs : List α} {octets : Octets}
    (each : ∀ x front, write x = ⟨front, none⟩ → size x = front.length)
    (written : all write xs = ⟨octets, none⟩) : (xs.map size).sum = octets.length := by
  induction xs generalizing octets with
  | nil =>
      rw [all_nil_eq_complete.mp written]
      rfl
  | cons x rest ih =>
      obtain ⟨front, back, head, tail, rfl⟩ := all_cons_eq_complete.mp written
      rw [List.map_cons, List.sum_cons, each x front head, ih tail, List.length_append]
      push_cast
      rfl

end Dis.Written

theorem Dis.Numeral.isShown_of_natAbs_le {n most : Int} (shown : isShown most)
    (fewer : n.natAbs ≤ most.natAbs) : isShown n := by
  simp only [isShown, decide_eq_true_eq] at shown ⊢
  exact Nat.lt_of_le_of_lt fewer shown

/-! Whole numbers on the wire. A format holds exactly the numbers that octets of its
width spell, and either names the other. -/

namespace Dis.IntFormat

variable (format : IntFormat)

@[simp] theorem length_octets (n : Int) : (format.octets n).length = format.width := by
  simp [octets]

theorem modulus_pos : 0 < format.modulus := Nat.pow_pos (by decide)

-- The two bounds are half the modulus each way, or zero and the modulus.
theorem bounds :
    format.greatest - format.least + 1 = format.modulus ∧ format.least ≤ 0 ∧
      0 ≤ format.greatest := by
  cases format <;> decide

theorem ofOctets_octets (n : Int) (holds : format.Holds n) :
    format.ofOctets (format.octets n) = n := by
  obtain ⟨above, below⟩ := holds
  obtain ⟨extent, least, greatest⟩ := format.bounds
  have positive := format.modulus_pos
  have low : 0 ≤ n % format.modulus := Int.emod_nonneg n (by omega)
  have high : n % format.modulus < format.modulus := Int.emod_lt_of_pos n (by omega)
  have spelled : (Octets.toNat (format.octets n) : Int) = n % format.modulus := by
    have small : (n % format.modulus).toNat < format.modulus := by omega
    rw [octets, Octets.toNat_ofNat_of_lt _ _ small]
    omega
  unfold ofOctets
  rw [spelled]
  by_cases negative : n < 0
  · have wrapped : n % format.modulus = n + format.modulus := by
      rw [← Int.add_emod_right, Int.emod_eq_of_lt (by omega) (by omega)]
    simp only [wrapped]
    split <;> omega
  · have plain : n % format.modulus = n := Int.emod_eq_of_lt (by omega) (by omega)
    simp only [plain]
    split <;> omega

theorem toNat_lt_modulus (octets : Octets) (size : octets.length = format.width) :
    Octets.toNat octets < format.modulus := by
  rw [modulus, ← size]
  exact octets.toNat_lt

theorem holds_ofOctets (octets : Octets) (size : octets.length = format.width) :
    format.Holds (format.ofOctets octets) := by
  have below := format.toNat_lt_modulus octets size
  obtain ⟨extent, least, greatest⟩ := format.bounds
  simp only [ofOctets, Holds]
  split <;> omega

theorem octets_ofOctets (octets : Octets) (size : octets.length = format.width) :
    format.octets (format.ofOctets octets) = octets := by
  have below := format.toNat_lt_modulus octets size
  have wrapped : format.ofOctets octets % format.modulus = Octets.toNat octets := by
    simp only [ofOctets]
    split
    · exact Int.emod_eq_of_lt (by omega) (by omega)
    · rw [Int.sub_emod_right]
      exact Int.emod_eq_of_lt (by omega) (by omega)
  rw [IntFormat.octets, wrapped, Int.toNat_natCast, ← size, Octets.ofNat_toNat]

theorem ofOctets_eq_toNat (unsigned : format.isSigned = false) (octets : Octets)
    (size : octets.length = format.width) : format.ofOctets octets = Octets.toNat octets := by
  have below := format.toNat_lt_modulus octets size
  have greatest : format.greatest = format.modulus - 1 := by
    simp only [IntFormat.greatest, unsigned, Bool.false_eq_true, if_false]
  exact if_pos (by omega)

theorem natAbs_lt_of_holds {n : Int} (holds : format.Holds n) : n.natAbs < 2 ^ 64 := by
  have narrow : format.modulus ≤ 2 ^ 64 := by cases format <;> decide
  obtain ⟨above, below⟩ := holds
  obtain ⟨extent, least, greatest⟩ := format.bounds
  omega

theorem isShown_of_holds {n : Int} (holds : format.Holds n) : Numeral.isShown n := by
  have shown : Numeral.isShown (2 ^ 64) := by decide +kernel
  exact Numeral.isShown_of_natAbs_le shown (Nat.le_of_lt (format.natAbs_lt_of_holds holds))

theorem nonneg_of_holds (unsigned : format.isSigned = false) (n : Int) (holds : format.Holds n) :
    0 ≤ n := by
  have least := holds.1
  simp only [IntFormat.least, unsigned] at least
  exact least

variable {format}

theorem write_eq_complete {n : Int} {octets : Octets} :
    format.write n = ⟨octets, none⟩ ↔ format.Holds n ∧ octets = format.octets n := by
  unfold write
  split
  · next holds => simp [holds, eq_comm]
  · next outside => simp [outside, Written.fail]

theorem read_eq_ok {n : Int} {input rest : Octets} :
    format.read input = .ok n rest ↔
      ∃ octets, input = octets ++ rest ∧ octets.length = format.width ∧
        n = format.ofOctets octets := by
  simp only [read, Reader.bind_eq_ok, Reader.take_eq_ok, Reader.pure_eq_ok]
  constructor
  · rintro ⟨octets, middle, ⟨rfl, size⟩, rfl, rfl⟩
    exact ⟨octets, rfl, size, rfl⟩
  · rintro ⟨octets, rfl, size, rfl⟩
    exact ⟨octets, rest, ⟨rfl, size⟩, rfl, rfl⟩

end Dis.IntFormat
