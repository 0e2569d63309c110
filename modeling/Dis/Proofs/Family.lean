import Dis.Proofs.Operation

/-! Families of cursors. An operation works on one cursor and leaves all others as they are, those
that it was taken from and those that were taken from it. So whatever is done to a family, each
cursor is what the operations on itself have made of it: no position leaves its octets, and no
cursor gets shorter. -/

namespace Dis.Cursor

namespace Family

/-- A cursor over octets gets a name, or an operation is applied to the cursor of a name. -/
inductive Call where
  | new (name : String) (octets : Octets)
  | apply (name : String) (operation : Operation)

def Call.run (family : Family) : Call → Family
  | new name octets => family.put name (ofOctets octets)
  | apply name operation =>
    match family.step? name operation with
    | some step => step.family
    | none => family

def after (calls : List Call) : Family := calls.foldl Call.run []

def Call.names : Call → Option String
  | new name _ => some name
  | apply _ (.take _ name) => some name
  | apply .. => none

def Call.on (name : String) : Call → Option Operation
  | new .. => none
  | apply target operation => if target = name then some operation else none

variable {family : Family} {name other : String} {cursor : Cursor}

section Lookup

-- What is filtered out has another name than the one that is looked for.
theorem lookup_filter (apart : other ≠ name) :
    (family.filter fun entry => entry.1 ≠ name).lookup other = family.lookup other := by
  induction family with
  | nil => rfl
  | cons entry rest ih =>
      rcases entry with ⟨key, cursor⟩
      by_cases same : key = name
      · subst same
        have passed : (other == key) = false := by simpa using apart
        simpa [List.lookup_cons, passed] using ih
      · by_cases found : other = key
        · subst found
          simp [same]
        · have passed : (other == key) = false := by simpa using found
          simpa [List.lookup_cons, same, passed] using ih

theorem lookup_put_self : (family.put name cursor).lookup name = some cursor :=
  List.lookup_cons_self

theorem lookup_put_of_ne (apart : other ≠ name) :
    (family.put name cursor).lookup other = family.lookup other := by
  have passed : (other == name) = false := by simpa using apart
  rw [put, List.lookup_cons, passed]
  exact lookup_filter apart

end Lookup

section Step

theorem run_apply (found : family.lookup name = some cursor) (operation : Operation) :
    (Call.apply name operation).run family = family.put name (cursor.apply operation).2 ∨
      ∃ given octets, (Call.apply name operation).names = some given ∧
        (Call.apply name operation).run family =
          (family.put name (cursor.apply operation).2).put given (ofOctets octets) := by
  rcases result : cursor.apply operation with ⟨outcome, later⟩
  simp only [Call.run, step?, found, result, bind, Option.bind, pure]
  cases outcome with
  | error e => exact Or.inl rfl
  | ok outcome =>
      cases outcome with
      | child given child =>
          rcases eq_take_of_child (congrArg Prod.fst result) with ⟨size, octets, rfl, rfl⟩
          exact Or.inr ⟨given, octets, rfl, rfl⟩
      | _ => exact Or.inl rfl

theorem run_of_absent (absent : family.lookup name = none) (operation : Operation) :
    (Call.apply name operation).run family = family := by
  simp only [Call.run, step?, absent, bind, Option.bind]

/-- A call on one cursor leaves those of all other names as they are. -/
theorem lookup_run_of_other {call : Call} (fresh : call.names ≠ some name)
    (other : call.on name = none) : (call.run family).lookup name = family.lookup name := by
  cases call with
  | new given octets =>
      apply lookup_put_of_ne
      intro same
      exact fresh (congrArg some same.symm)
  | apply target operation =>
      have apart : name ≠ target := by
        rintro rfl
        simp [Call.on] at other
      cases found : family.lookup target with
      | none => rw [run_of_absent found]
      | some cursor =>
          rcases run_apply found operation with ran | ⟨given, octets, names, ran⟩
          · rw [ran, lookup_put_of_ne apart]
          · have new : name ≠ given := by
              rintro rfl
              exact fresh names
            rw [ran, lookup_put_of_ne new, lookup_put_of_ne apart]

theorem lookup_run_of_on {call : Call} {operation : Operation} (fresh : call.names ≠ some name)
    (own : call.on name = some operation) (found : family.lookup name = some cursor) :
    (call.run family).lookup name = some (cursor.apply operation).2 := by
  cases call with
  | new given octets => cases own
  | apply target other =>
      simp only [Call.on] at own
      split at own
      · next same =>
        subst same
        cases own
        rcases run_apply found operation with ran | ⟨given, octets, names, ran⟩
        · rw [ran, lookup_put_self]
        · have new : target ≠ given := by
            rintro rfl
            exact fresh names
          rw [ran, lookup_put_of_ne new, lookup_put_self]
      · cases own

end Step

def IsInside (family : Family) : Prop :=
  ∀ name cursor, family.lookup name = some cursor → cursor.position ≤ cursor.length

section Run

theorem IsInside.put (all : family.IsInside) (inside : cursor.position ≤ cursor.length) :
    (family.put name cursor).IsInside := by
  intro other found present
  by_cases same : other = name
  · subst same
    rw [lookup_put_self] at present
    cases present
    exact inside
  · rw [lookup_put_of_ne same] at present
    exact all other found present

theorem isInside_run (all : family.IsInside) (call : Call) : (call.run family).IsInside := by
  cases call with
  | new name octets => exact all.put (Nat.zero_le _)
  | apply name operation =>
      cases found : family.lookup name with
      | none =>
          rw [run_of_absent found]
          exact all
      | some cursor =>
          have moved : (family.put name (cursor.apply operation).2).IsInside :=
            all.put (inside_apply operation (all name cursor found))
          rcases run_apply found operation with ran | ⟨given, octets, -, ran⟩
          · rw [ran]
            exact moved
          · rw [ran]
            exact moved.put (Nat.zero_le _)

theorem isInside_foldl (all : family.IsInside) (calls : List Call) :
    (calls.foldl Call.run family).IsInside := by
  induction calls generalizing family with
  | nil => exact all
  | cons call calls ih => exact ih (isInside_run all call)

theorem isInside_after (calls : List Call) : (after calls).IsInside := by
  apply isInside_foldl
  intro name cursor found
  cases found

/-- As long as its name is not given to another cursor, a cursor is what the operations on it have
made of it, with any calls on other cursors in between. -/
theorem lookup_foldl {calls : List Call} (fresh : ∀ call ∈ calls, call.names ≠ some name)
    (found : family.lookup name = some cursor) :
    (calls.foldl Call.run family).lookup name =
      some (cursor.behind (calls.filterMap (Call.on name))) := by
  induction calls generalizing family cursor with
  | nil => exact found
  | cons call calls ih =>
      have here := fresh call List.mem_cons_self
      have rest := fun other listed => fresh other (List.mem_cons_of_mem call listed)
      cases own : call.on name with
      | none =>
          rw [List.foldl_cons, List.filterMap_cons_none own]
          apply ih rest
          rw [lookup_run_of_other here own, found]
      | some operation =>
          rw [List.foldl_cons, List.filterMap_cons_some own]
          exact ih rest (lookup_run_of_on here own found)

end Run

end Family

/-- Whatever is done to a family, each of its cursors stands within its octets and is what the
operations on it alone have made of it. Reading goes forward over octets that it leaves alone,
also where it fails midway; writing leaves what stands in front; and octets that are asked for
and not all there are refused, with nothing moved, as too many where their number can be worded. -/
theorem family_law (cursor : Cursor) :
    (∀ calls name, (Family.after calls).lookup name = some cursor →
      cursor.position ≤ cursor.length ∧ cursor.position + cursor.remaining = cursor.length ∧
      (cursor.atEnd ↔ cursor.remaining = 0) ∧
      (∀ operation, operation.puts = none → cursor.Moves (cursor.apply operation).2 ∧
        (cursor.apply operation).2.octets = cursor.octets) ∧
      ∀ operation octets, operation.puts = some octets →
        (cursor.apply operation).2.octets.take cursor.position =
          cursor.octets.take cursor.position) ∧
    (∀ earlier calls name, (Family.after earlier).lookup name = some cursor →
      (∀ call ∈ calls, call.names ≠ some name) →
      (Family.after (earlier ++ calls)).lookup name =
        some (cursor.behind (calls.filterMap (Family.Call.on name))) ∧
      cursor.length ≤ (cursor.behind (calls.filterMap (Family.Call.on name))).length) ∧
    (∀ (family : Family) (call : Family.Call) name, call.names ≠ some name →
      call.on name = none → (call.run family).lookup name = family.lookup name) ∧
    (∀ (operation : Operation) (size : Nat), operation.asks = some ↑size →
      ((∃ e, (cursor.apply operation).1 = .error e ∧ e.category = .truncated) ↔
        cursor.remaining < size ∧ Numeral.isShown size) ∧
      (cursor.remaining < size → (cursor.apply operation).2 = cursor ∧
        (¬ Numeral.isShown size →
          ∃ e, (cursor.apply operation).1 = .error e ∧ e.category = .value)) ∧
      (size ≤ cursor.remaining → ∃ outcome, (cursor.apply operation).1 = .ok outcome)) ∧
    (∀ kind : Wire.Kind, kind.isLengthBound →
      cursor.apply (.deserializeWithLength kind 0) = (.ok (.blob kind.name none), cursor)) ∧
    (∀ size : Int, cursor.apply (.peek size) = ((cursor.apply (.read size)).1, cursor)) ∧
    (∀ size : Nat, size ≤ cursor.remaining →
      cursor.apply (.read size) =
        (.ok (.octets (cursor.ahead.take size)), cursor.advance size) ∧
      (∀ name, cursor.apply (.take size name) =
        (.ok (.child name (ofOctets (cursor.ahead.take size))), cursor.advance size)) ∧
      ∀ kind : Wire.Kind, kind.isLengthBound → size ≠ 0 →
        cursor.apply (.deserializeWithLength kind size) =
          (.ok (.blob kind.name (some (cursor.ahead.take size))), cursor.advance size)) ∧
    (∀ (later : Cursor) (first second : Nat) (octets : Octets),
      cursor.read ↑(first + second) = (.ok octets, later) ↔
        ∃ front back middle, cursor.read first = (.ok front, middle) ∧
          middle.read second = (.ok back, later) ∧ octets = front ++ back) := by
  refine ⟨?_, ?_, ?_, ?_, ?_, ?_, ?_, ?_⟩
  · intro calls name found
    have inside := Family.isInside_after calls name cursor found
    refine ⟨inside, Nat.add_sub_cancel' inside, ?_, ?_, ?_⟩
    · rw [atEnd, beq_iff_eq]
    · intro operation reads
      have moves := moves_apply reads inside
      exact ⟨moves, moves.octets⟩
    · intro operation octets writes
      rw [apply_of_puts writes]
      exact front_write inside
  · intro earlier calls name found fresh
    have inside := Family.isInside_after earlier name cursor found
    rw [Family.after, List.foldl_append]
    exact ⟨Family.lookup_foldl fresh found, length_le_behind inside _⟩
  · intro family call name fresh other
    exact Family.lookup_run_of_other fresh other
  · intro operation size asks
    refine ⟨truncated_iff asks, ?_, apply_of_enough asks⟩
    intro short
    refine ⟨?_, category_of_short asks short⟩
    rw [apply_of_short asks short]
  · intro kind bound
    rw [apply, readSized, if_pos bound]
    rfl
  · intro size
    simp only [apply, peek_eq]
  · intro size enough
    exact apply_granted enough
  · intro later first second octets
    exact read_add_iff

/-- An identifier read from too few octets that were taken off others, and those others then
written over. -/
theorem family_law_samples :
    let earlier : List Family.Call := [.new "main" [0, 1, 0, 2, 9, 9, 9],
      .apply "main" (.take 4 "part"), .apply "part" (.deserialize (.record .entityId))]
    let later : List Family.Call := [.apply "main" (.write [7, 7, 7, 7])]
    let part : Cursor := ⟨[0, 1, 0, 2], 4⟩
    let main : Cursor := ⟨[0, 1, 0, 2, 9, 9, 9], 4⟩
    part.position + part.remaining = part.length ∧
    (Family.after (earlier ++ later)).lookup "part" = some part ∧
    (Family.after (earlier ++ later)).lookup "main" = some ⟨[0, 1, 0, 2, 7, 7, 7, 7], 8⟩ ∧
    (main.apply (.serialize (.record ⟨.entityId, EntityId.of 1 70000 3⟩))).2.octets.take 4 =
      [0, 1, 0, 2] ∧
    (∃ e, (part.apply (.take 1 "none")).1 = .error e ∧ e.category = .truncated) ∧
    part.apply (.deserializeWithLength (.record .antennaPattern) 0) =
      (.ok (.blob "AntennaPattern" none), part) ∧
    main.apply (.read 2) = (.ok (.octets [9, 9]), main.advance 2) := by
  intro earlier later part main
  have foundPart : (Family.after earlier).lookup "part" = some part := by decide +kernel
  have foundMain : (Family.after earlier).lookup "main" = some main := by decide +kernel
  rcases family_law part with ⟨stands, keeps, -, asks, empty, -⟩
  rcases family_law main with ⟨stood, kept, -, -, -, -, reads, -⟩
  rcases stands earlier "part" foundPart with ⟨-, account, -⟩
  rcases stood earlier "main" foundMain with ⟨-, -, -, -, front⟩
  refine ⟨account, ?_, ?_, front _ _ rfl, ?_, empty _ rfl, (reads 2 (by decide)).1⟩
  · exact (keeps earlier later "part" foundPart (by decide)).1
  · exact (kept earlier later "main" foundMain (by decide)).1
  · exact (asks (.take 1 "none") 1 rfl).1.mpr (by decide +kernel)

/-- More digits are asked for than the wording can hold, and what is raised is not that the octets
end too early. -/
theorem unworded_request :
    (Operation.read (10 ^ Numeral.mostDigits)).asks = some (10 ^ Numeral.mostDigits) ∧
    ∃ e, ((ofOctets []).apply (.read (10 ^ Numeral.mostDigits))).1 = .error e ∧
      e.category = .value := by
  have refused : ((ofOctets []).read (10 ^ Numeral.mostDigits)).1 =
      .error (.cursorShort (10 ^ Numeral.mostDigits) 0 0) := by
    decide +kernel
  refine ⟨rfl, .cursorShort (10 ^ Numeral.mostDigits) 0 0, ?_, by decide +kernel⟩
  rw [apply_read, refused, Except.map]

end Dis.Cursor
