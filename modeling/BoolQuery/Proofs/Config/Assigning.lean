import BoolQuery.Proofs.Config.Merging

/-! Values put at the ends of paths.

What is put at the end of a path stands there, and whatever is found along a path that diverges from
it stays as it was, also where an object came in the place of another value. The last of two values
for a path counts, and values for two paths that diverge may be put in either order. All of this is
`assign_updates_path`.
-/

set_option autoImplicit false

namespace BoolQuery.Config

/-- Neither of two paths goes on from the other. -/
def Diverge (path other : List String) : Prop := ¬ path <+: other ∧ ¬ other <+: path

theorem diverge_cons {name name' : String} {path other : List String} :
    Diverge (name :: path) (name' :: other) ↔ (name = name' → Diverge path other) := by
  simp only [Diverge, List.cons_prefix_cons, not_and]
  constructor
  · intro apart same
    exact ⟨apart.1 same, apart.2 same.symm⟩
  · intro apart
    exact ⟨fun same => (apart same).1, fun same => (apart same.symm).2⟩

theorem not_diverge_nil (other : List String) : ¬ Diverge [] other :=
  fun apart => apart.1 other.nil_prefix

theorem not_diverge_nil_right (path : List String) : ¬ Diverge path [] :=
  fun apart => apart.2 path.nil_prefix

/-- The same value, but for the order of the names in an object and in the objects within it. -/
inductive SameMapping : Data → Data → Prop where
  | same (value : Data) : SameMapping value value
  | object {members others : Members} :
      (∀ name, members.lookup name = none ↔ others.lookup name = none) →
      (∀ name value other, members.lookup name = some value → others.lookup name = some other →
        SameMapping value other) →
      SameMapping (.object members) (.object others)

theorem sameMapping_of_lookup_eq {members others : Members}
    (same : ∀ name, members.lookup name = others.lookup name) :
    SameMapping (.object members) (.object others) := by
  apply SameMapping.object
  · intro name
    rw [same]
  · intro name value other found found'
    rw [same, found', Option.some.injEq] at found
    rw [found]
    exact .same value

theorem SameMapping.put {value other : Data} (same : SameMapping value other) (members : Members)
    (name : String) :
    SameMapping (.object (members.put name value)) (.object (members.put name other)) := by
  apply SameMapping.object
  · intro name'
    by_cases equal : name' = name
    · simp [equal, Members.lookup_put_same]
    · rw [Members.lookup_put_other _ _ equal, Members.lookup_put_other _ _ equal]
  · intro name' held held' found found'
    by_cases equal : name' = name
    · rw [equal, Members.lookup_put_same, Option.some.injEq] at found found'
      rw [← found, ← found']
      exact same
    · rw [Members.lookup_put_other _ _ equal] at found found'
      rw [found, Option.some.injEq] at found'
      rw [found']
      exact .same held'

/-! ## The first name of a path -/

theorem find?_cons_cons (members : Members) (name second : String) (rest : List String) :
    find? members (name :: second :: rest) = find? (child members name) (second :: rest) :=
  rfl

/-- What stands at a name once a value has been put at the end of a path below it. -/
def grafted (members : Members) (name : String) (rest : List String) (value : Data) : Data :=
  match rest with
  | [] => value
  | second :: rest => .object (assign (child members name) (second :: rest) value)

theorem assign_cons (members : Members) (name : String) (rest : List String) (value : Data) :
    assign members (name :: rest) value = members.put name (grafted members name rest value) := by
  cases rest with
  | nil => rfl
  | cons second rest => rfl

theorem grafted_put_other (members : Members) {name other : String} (differs : other ≠ name)
    (rest : List String) (value laid : Data) :
    grafted (members.put name laid) other rest value = grafted members other rest value := by
  cases rest with
  | nil => rfl
  | cons second rest => rw [grafted, child_put_other _ _ differs, grafted]

theorem find?_put_other (members : Members) {name other : String} (differs : other ≠ name)
    (rest : List String) (value : Data) :
    find? (members.put name value) (other :: rest) = find? members (other :: rest) := by
  cases rest with
  | nil => exact Members.lookup_put_other members value differs
  | cons second rest => rw [find?_cons_cons, child_put_other _ _ differs, find?_cons_cons]

/-! ## Whole paths -/

theorem find?_assign_same (members : Members) {path : List String} (nonempty : path ≠ [])
    (value : Data) : find? (assign members path value) path = some value := by
  induction path generalizing members with
  | nil => exact absurd rfl nonempty
  | cons name rest ih =>
    cases rest with
    | nil => exact Members.lookup_put_same members name value
    | cons second rest =>
      rw [assign_cons, find?_cons_cons, grafted, child_put_same]
      exact ih (child members name) (List.cons_ne_nil second rest)

theorem find?_assign_of_diverge (members : Members) {path other : List String}
    (apart : Diverge path other) (value : Data) :
    find? (assign members path value) other = find? members other := by
  induction path generalizing members other with
  | nil => exact absurd apart (not_diverge_nil other)
  | cons name rest ih =>
    cases other with
    | nil => exact absurd apart (not_diverge_nil_right _)
    | cons name' rest' =>
      rw [assign_cons]
      by_cases same : name' = name
      · subst same
        have within := diverge_cons.mp apart rfl
        -- Paths that diverge further down both go on.
        cases rest with
        | nil => exact absurd within (not_diverge_nil rest')
        | cons second rest =>
          cases rest' with
          | nil => exact absurd within (not_diverge_nil_right _)
          | cons second' rest' =>
            rw [find?_cons_cons, grafted, child_put_same, ih _ within, find?_cons_cons]
      · exact find?_put_other members same rest' _

theorem assign_assign (members : Members) (path : List String) (value last : Data) :
    assign (assign members path value) path last = assign members path last := by
  induction path generalizing members with
  | nil => rfl
  | cons name rest ih =>
    rw [assign_cons, assign_cons, assign_cons, Members.put_put]
    cases rest with
    | nil => rfl
    | cons second rest => rw [grafted, grafted, grafted, child_put_same, ih]

theorem lookup_put_comm (members : Members) {name other : String} (differs : other ≠ name)
    (value last : Data) (name' : String) :
    ((members.put name value).put other last).lookup name' =
      ((members.put other last).put name value).lookup name' := by
  by_cases first : name' = name
  · rw [first, Members.lookup_put_same, Members.lookup_put_other _ _ (Ne.symm differs),
      Members.lookup_put_same]
  · rw [Members.lookup_put_other _ value first]
    by_cases second : name' = other
    · rw [second, Members.lookup_put_same, Members.lookup_put_same]
    · rw [Members.lookup_put_other _ _ second, Members.lookup_put_other _ _ first,
        Members.lookup_put_other _ _ second]

theorem assign_comm (members : Members) {path other : List String} (apart : Diverge path other)
    (value last : Data) :
    SameMapping (.object (assign (assign members path value) other last))
      (.object (assign (assign members other last) path value)) := by
  induction path generalizing members other with
  | nil => exact absurd apart (not_diverge_nil other)
  | cons name rest ih =>
    cases other with
    | nil => exact absurd apart (not_diverge_nil_right _)
    | cons name' rest' =>
      simp only [assign_cons]
      by_cases same : name' = name
      · subst same
        have within := diverge_cons.mp apart rfl
        cases rest with
        | nil => exact absurd within (not_diverge_nil rest')
        | cons second rest =>
          cases rest' with
          | nil => exact absurd within (not_diverge_nil_right _)
          | cons second' rest' =>
            -- The two paths diverge within the object that both put at this name.
            simp only [grafted, child_put_same, Members.put_put]
            exact (ih (child members name') within).put members name'
      · rw [grafted_put_other _ same, grafted_put_other _ (Ne.symm same)]
        exact sameMapping_of_lookup_eq (lookup_put_comm members same _ _)

/-- Putting a value at the end of a path obeys the laws of an update. -/
theorem assign_updates_path (members : Members) {path : List String} (nonempty : path ≠ [])
    (value : Data) :
    find? (assign members path value) path = some value ∧
    (∀ other, Diverge path other → find? (assign members path value) other = find? members other) ∧
    (∀ last, assign (assign members path value) path last = assign members path last) ∧
    ∀ other, Diverge path other → ∀ last,
      SameMapping (.object (assign (assign members path value) other last))
        (.object (assign (assign members other last) path value)) :=
  ⟨find?_assign_same members nonempty value,
    fun _ apart => find?_assign_of_diverge members apart value,
    assign_assign members path value,
    fun _ apart => assign_comm members apart value⟩

/-- A number stands where both paths need an object, and the two orders give it its names in
different orders. -/
theorem number_in_the_way_assign_updates_path :
    let members : Members := [("a", .int 1), ("b", .null)]
    let once := assign members ["a", "x"] (.text "v")
    let twice := assign once ["a", "y", "z"] (.int 2)
    let turned := assign (assign members ["a", "y", "z"] (.int 2)) ["a", "x"] (.text "v")
    find? once ["a", "x"] = some (.text "v") ∧ find? once ["a", "y", "z"] = none ∧
      assign once ["a", "x"] .null = assign members ["a", "x"] .null ∧
      twice ≠ turned ∧ SameMapping (.object twice) (.object turned) := by
  intro members once twice turned
  obtain ⟨held, kept, last, order⟩ :=
    @assign_updates_path members ["a", "x"] (by decide) (.text "v")
  have apart : Diverge ["a", "x"] ["a", "y", "z"] := ⟨by decide, by decide⟩
  exact ⟨held, kept _ apart, last .null, by decide, order _ apart (.int 2)⟩

end BoolQuery.Config
