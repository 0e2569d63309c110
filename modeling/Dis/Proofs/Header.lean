import Dis.Frame
import Dis.Proofs.Layout.Size

/-! Headers on the wire. Where the family and the length stand, what is read after a
header was written, and what is written after one was read. Everything that frames and
walks rely on follows from the two places. -/

namespace Dis.Header

structure Places (octets family length : Octets) : Prop where
  cut : ∃ front time trailer, octets = front ++ (family ++ (time ++ (length ++ trailer))) ∧
    front.length = 3 ∧ time.length = 4 ∧ trailer.length = 2
  family : family.length = 1
  length : length.length = 2

namespace Places

variable {octets family length : Octets}

theorem size (places : Places octets family length) : octets.length = pduHeaderSize := by
  obtain ⟨⟨front, time, trailer, rfl, three, four, two⟩, one, wide⟩ := places
  simp [three, four, two, one, wide, pduHeaderSize]

theorem length_eq (places : Places octets family length) (more : Octets) :
    ((octets ++ more).drop headerLengthOffset).take 2 = length := by
  obtain ⟨⟨front, time, trailer, rfl, three, four, two⟩, one, wide⟩ := places
  have offset : headerLengthOffset = (front ++ (family ++ time)).length := by
    simp [three, four, one, headerLengthOffset]
  have regrouped : front ++ (family ++ (time ++ (length ++ trailer))) ++ more =
      (front ++ (family ++ time)) ++ (length ++ (trailer ++ more)) := by simp
  rw [regrouped, offset, List.drop_left, ← wide, List.take_left]

theorem family_eq (places : Places octets family length) (more : Octets) :
    (((octets ++ more).getD headerFamilyOffset 0).toNat : Int) = IntFormat.u8.ofOctets family := by
  obtain ⟨⟨front, time, trailer, rfl, three, four, two⟩, one, wide⟩ := places
  obtain ⟨octet, rfl⟩ := List.length_eq_one_iff.mp one
  have found : (front ++ ([octet] ++ (time ++ (length ++ trailer))) ++ more).getD
      headerFamilyOffset 0 = octet := by
    have offset : headerFamilyOffset = front.length := three.symm
    simp [offset]
  rw [found, IntFormat.ofOctets_eq_toNat _ rfl [octet] rfl]
  simp [Octets.toNat]

end Places

section Common

variable {rest : Layout} {v : rest.Value} {version : Code .protocolVersion} {type : Code .pduType}
variable {family : Code .protocolFamily} {exercise timestamp length : Int}

theorem places_of_write {octets : Octets}
    (fixed : ∀ scope, rest.sizeIn scope v = 2)
    (written : (HeaderShape.common rest).write
      (version, exercise, type, family, timestamp, length, v) = ⟨octets, none⟩) :
    Places octets (IntFormat.u8.octets family.number) (IntFormat.u16.octets length) ∧
      IntFormat.u8.Holds family.number ∧ IntFormat.u16.Holds length := by
  simp only [Layout.write, Layout.writeIn, Written.append_eq_complete,
    Written.under_eq_complete] at written
  obtain ⟨a, _, first, ⟨b, _, second, ⟨c, _, third, ⟨_, _, fourth, ⟨time, _, fifth,
    ⟨_, trailer, sixth, last, rfl⟩, rfl⟩, rfl⟩, rfl⟩, rfl⟩, rfl⟩ := written
  obtain ⟨holds, rfl⟩ := IntFormat.write_eq_complete.mp fourth
  obtain ⟨fits, rfl⟩ := IntFormat.write_eq_complete.mp sixth
  have one : a.length = 1 := (Atom.length_of_write first).1
  have one' : b.length = 1 := (Atom.length_of_write second).1
  have one'' : c.length = 1 := (Atom.length_of_write third).1
  have two : trailer.length = 2 := by
    have size := (rest.size_of_write last).2
    rw [fixed] at size
    omega
  refine ⟨⟨⟨a ++ (b ++ c), time, trailer, ?_, ?_, (Atom.length_of_write fifth).1, two⟩,
    IntFormat.length_octets .., IntFormat.length_octets ..⟩, holds, fits⟩
  · simp only [List.append_assoc]
  · simp only [List.length_append, one, one', one'']

theorem places_of_read {input left : Octets} (sound : rest.isSound)
    (fixed : ∀ scope, Span.extent (rest.spans scope v) = 2)
    (read : (HeaderShape.common rest).read input =
      .ok (version, exercise, type, family, timestamp, length, v) left) :
    ∃ octets first second, input = octets ++ left ∧ Places octets first second ∧
      family = Enumeration.protocolFamily.decode (IntFormat.u8.ofOctets first) ∧
      length = Octets.toNat second := by
  obtain ⟨_, first, afterVersion⟩ := Layout.readIn_atom.mp read
  obtain ⟨_, second, afterExercise⟩ := Layout.readIn_atom.mp afterVersion
  obtain ⟨_, third, afterType⟩ := Layout.readIn_atom.mp afterExercise
  obtain ⟨_, fourth, afterFamily⟩ := Layout.readIn_atom.mp afterType
  obtain ⟨_, fifth, afterTime⟩ := Layout.readIn_atom.mp afterFamily
  obtain ⟨_, sixth, last⟩ := Layout.readIn_atom.mp afterTime
  obtain ⟨a, rfl, one⟩ := Atom.length_of_read (by decide) first
  obtain ⟨b, rfl, one'⟩ := Atom.length_of_read rfl second
  obtain ⟨c, rfl, one''⟩ := Atom.length_of_read (by decide) third
  obtain ⟨n, _, number, named⟩ := Reader.bind_eq_ok.mp fourth
  obtain ⟨rfl, rfl⟩ := Reader.pure_eq_ok.mp named
  obtain ⟨family, rfl, four, rfl⟩ := IntFormat.read_eq_ok.mp number
  obtain ⟨time, rfl, five⟩ := Atom.length_of_read rfl fifth
  obtain ⟨length, rfl, six, rfl⟩ := IntFormat.read_eq_ok.mp sixth
  obtain ⟨trailer, rfl, two⟩ := rest.recovers sound Scope.fits_nil last
  refine ⟨a ++ (b ++ c) ++ (family ++ (time ++ (length ++ trailer))), family, length, ?_,
    ⟨⟨a ++ (b ++ c), time, trailer, rfl, ?_, five, two.size.trans (fixed _)⟩, four, six⟩, rfl,
    IntFormat.ofOctets_eq_toNat _ rfl length six⟩
  · simp only [List.append_assoc]
  · simp only [List.length_append, one, one', one'']
    rfl

end Common

theorem places_write {header : Header} {octets : Octets}
    (written : header.write = ⟨octets, none⟩) :
    Places octets (IntFormat.u8.octets header.protocolFamily.number)
        (IntFormat.u16.octets header.length) ∧
      IntFormat.u8.Holds header.protocolFamily.number ∧ IntFormat.u16.Holds header.length := by
  obtain ⟨version, exercise, type, family, timestamp, length, trailer⟩ := header
  cases trailer with
  | status status => exact places_of_write (fun _ => rfl) written
  | subprotocol subprotocol => exact places_of_write (fun _ => rfl) written

theorem places_read {shape : HeaderShape} {header : Header} {input left : Octets}
    (read : Header.read shape input = .ok header left) :
    ∃ octets first second, input = octets ++ left ∧ Places octets first second ∧
      header.shape = shape ∧
      header.protocolFamily = Enumeration.protocolFamily.decode (IntFormat.u8.ofOctets first) ∧
      header.length = Octets.toNat second := by
  obtain ⟨value, members, rfl⟩ := Reader.map_eq_ok.mp read
  cases shape with
  | standard =>
      obtain ⟨octets, first, second, split, places, named, sized⟩ :=
        places_of_read (by decide) (fun _ => rfl) members
      exact ⟨octets, first, second, split, places, rfl, named, sized⟩
  | liveEntity =>
      obtain ⟨octets, first, second, split, places, named, sized⟩ :=
        places_of_read (by decide) (fun _ => rfl) members
      exact ⟨octets, first, second, split, places, rfl, named, sized⟩

theorem length_of_read {shape : HeaderShape} {header : Header} {octets : Octets}
    (read : Header.read shape octets = .ok header []) : octets.length = pduHeaderSize := by
  obtain ⟨octets, first, second, rfl, places, -⟩ := places_read read
  rw [List.append_nil, places.size]

theorem length_write {header : Header} {octets : Octets} (written : header.write = ⟨octets, none⟩)
    (more : Octets) :
    (Octets.toNat (((octets ++ more).drop headerLengthOffset).take 2) : Int) = header.length := by
  obtain ⟨places, -, fits⟩ := places_write written
  rw [places.length_eq, ← IntFormat.ofOctets_eq_toNat _ rfl _ (IntFormat.length_octets ..),
    IntFormat.ofOctets_octets _ _ fits]

def norm (header : Header) : Header :=
  ofValue header.shape (header.shape.kind.layout.norm header.value)

def spans (header : Header) : List Span := header.shape.kind.layout.spans [] header.value

section Norm

variable (header : Header)

theorem shape_norm : header.norm.shape = header.shape := by
  obtain ⟨_, _, _, _, _, _, trailer⟩ := header
  cases trailer <;> rfl

theorem pduType_norm :
    header.norm.pduType = Enumeration.pduType.decode header.pduType.number := by
  obtain ⟨_, _, _, _, _, _, trailer⟩ := header
  cases trailer <;> rfl

theorem protocolFamily_norm :
    header.norm.protocolFamily = Enumeration.protocolFamily.decode header.protocolFamily.number := by
  obtain ⟨_, _, _, _, _, _, trailer⟩ := header
  cases trailer <;> rfl

theorem length_norm : header.norm.length = header.length := by
  obtain ⟨_, _, _, _, _, _, trailer⟩ := header
  cases trailer <;> rfl

theorem norm_withLength (length : Int) :
    { header with length }.norm = { header.norm with length } := by
  obtain ⟨_, _, _, _, _, _, trailer⟩ := header
  cases trailer <;> rfl

end Norm

theorem ofValue_eq (shape : HeaderShape) (value : shape.kind.Value) :
    (ofValue shape value).shape = shape ∧
      (ofValue shape value).norm = ofValue shape (shape.kind.layout.norm value) ∧
      (ofValue shape value).spans = shape.kind.layout.spans [] value ∧
      (ofValue shape value).write = shape.kind.layout.write value := by
  cases shape <;> exact ⟨rfl, rfl, rfl, rfl⟩

theorem isBounded (shape : HeaderShape) : shape.kind.layout.isBounded := by
  cases shape <;> rfl

theorem isSound (shape : HeaderShape) : shape.kind.layout.isSound := by
  cases shape <;> decide +kernel

variable {header : Header} {shape : HeaderShape} {input left : Octets}

theorem read_of_write {octets : Octets} (written : header.write = ⟨octets, none⟩) :
    Header.read header.shape octets = .ok header.norm [] :=
  Reader.map_eq_ok.mpr ⟨_, Layout.read_of_write _ (isSound _) written, rfl⟩

theorem norm_of_read (read : Header.read shape input = .ok header left) : header.norm = header := by
  obtain ⟨value, members, rfl⟩ := Reader.map_eq_ok.mp read
  rw [(ofValue_eq shape value).2.1, Layout.norm_of_read _ members]

theorem recovers (read : Header.read shape input = .ok header left) :
    ∃ octets, input = octets ++ left ∧
      Recovers (Header.read shape) header.spans header.write true header octets := by
  obtain ⟨value, members, rfl⟩ := Reader.map_eq_ok.mp read
  obtain ⟨-, -, spans, written⟩ := ofValue_eq shape value
  obtain ⟨octets, split, recovers⟩ :=
    shape.kind.layout.recovers (isSound shape) Scope.fits_nil members
  rw [isBounded] at recovers
  refine ⟨octets, split, ?_⟩
  rw [spans, written]
  have mapped := recovers.map (ofValue shape)
  rwa [bind_pure_comp] at mapped

end Dis.Header

/-! The kinds that the library knows pass the tests that the general laws ask for. -/

namespace Dis

namespace RecordKind

def withHeaders : List RecordKind :=
  catalog ++ [HeaderShape.standard.kind, HeaderShape.liveEntity.kind]

theorem isSound_of_mem : ∀ kind ∈ withHeaders, kind.layout.isSound := by decide +kernel

/-- A kind of fixed size is said to have the size that its layout gives it. -/
theorem fixedSize_of_mem : ∀ kind ∈ withHeaders,
    kind.fixedSize = none ∨ kind.fixedSize = kind.layout.fixedSize? := by decide +kernel

end RecordKind

namespace PduKind

theorem isSound_of_mem : ∀ kind ∈ catalog, kind.body.isSound := by decide +kernel

theorem sizeRule_of_mem : ∀ kind ∈ catalog, kind.sizeRule = none := by
  simp only [catalog, List.forall_mem_cons]
  exact ⟨rfl, rfl, rfl, rfl, rfl, rfl, rfl, rfl, rfl, rfl, rfl, rfl, rfl, rfl, rfl, rfl, rfl, rfl,
    fun _ listed => nomatch listed⟩

theorem lookup_of_mem : ∀ kind ∈ catalog, Registry.standard.lookup kind.key = some kind := by
  simp only [catalog, List.forall_mem_cons]
  exact ⟨rfl, rfl, rfl, rfl, rfl, rfl, rfl, rfl, rfl, rfl, rfl, rfl, rfl, rfl, rfl, rfl, rfl, rfl,
    fun _ listed => nomatch listed⟩

theorem isRegular_of_mem : ∀ kind ∈ catalog,
    Enumeration.pduType.Knows kind.pduType ∧ Enumeration.protocolFamily.Knows kind.family ∧
      kind.header = .ofFamily kind.family := by decide +kernel

end PduKind
end Dis
