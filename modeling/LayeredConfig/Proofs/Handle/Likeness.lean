import LayeredConfig.Proofs.Handle.Unchanged
import LayeredConfig.Proofs.Store.Path

/-!
# Trees that look alike

Two trees that have the same shape at every path give the same texts, whatever the names of their sections are.
-/

namespace LayeredConfig

/-- The textual form that a value is read as. -/
def Value.asText (key : String) (value : Value) : Except Failure String :=
  match value.render with
  | some text => .ok text
  | none => .error (.incompatibleValue key (.scalar .text) value.kind)

namespace Store

/-- The trees of both sections have the same shape at every path. -/
def Resembles (left right : Store) (leftRoot rightRoot : SectionId) : Prop :=
  ∀ path, left.shapeAt (.nested .plain leftRoot) path = right.shapeAt (.nested .plain rightRoot) path

/-- Both sections stand at one path. -/
def Counterparts (left right : Store) (leftRoot rightRoot mine yours : SectionId) : Prop :=
  ∃ path, left.sectionAt (.nested .plain leftRoot) path = some mine ∧
    right.sectionAt (.nested .plain rightRoot) path = some yours

/-- Nothing in both trees, or the same scalar, or counterparts in the same role. -/
inductive Paired (left right : Store) (leftRoot rightRoot : SectionId) : Option Value → Option Value → Prop where
  | none : Paired left right leftRoot rightRoot none none
  | scalar (content : Scalar) : Paired left right leftRoot rightRoot (some (.scalar content)) (some (.scalar content))
  | nested {role mine yours} : left.Counterparts right leftRoot rightRoot mine yours →
      Paired left right leftRoot rightRoot (some (.nested role mine)) (some (.nested role yours))

variable {left right : Store} {leftRoot rightRoot mine yours : SectionId}

theorem paired_of_shape (path : List String) {value? other? : Option Value}
    (hshape : value?.map left.shape = other?.map right.shape)
    (hleft : left.sectionAt (.nested .plain leftRoot) path = value?.bind Value.section?)
    (hright : right.sectionAt (.nested .plain rightRoot) path = other?.bind Value.section?) :
    left.Paired right leftRoot rightRoot value? other? := by
  cases value? with
  | none =>
      obtain rfl := Option.map_eq_none_iff.mp hshape.symm
      exact .none
  | some value =>
      obtain ⟨other, rfl, hother⟩ := Option.map_eq_some_iff.mp hshape.symm
      cases value with
      | scalar content =>
          cases other <;> simp [shape] at hother
          rw [hother]
          exact .scalar content
      | nested role child =>
          cases other <;> simp [shape] at hother
          rw [hother.1]
          exact .nested ⟨path, hleft, hright⟩

namespace Resembles

theorem paired (h : left.Resembles right leftRoot rightRoot)
    (hsame : left.Counterparts right leftRoot rightRoot mine yours) (key : String) :
    left.Paired right leftRoot rightRoot (left.get? mine key) (right.get? yours key) := by
  obtain ⟨path, hmine, hyours⟩ := hsame
  apply paired_of_shape (path ++ [key])
  · simpa [shapeAt_concat, hmine, hyours] using h (path ++ [key])
  · rw [sectionAt_concat, hmine]
    rfl
  · rw [sectionAt_concat, hyours]
    rfl

theorem alike (h : left.Resembles right leftRoot rightRoot) :
    left.Alike right leftRoot rightRoot (left.Counterparts right leftRoot rightRoot) where
  topLevel name := by
    have hpaired := h.paired ⟨[], rfl, rfl⟩ name
    rw [child?, child?]
    generalize left.get? leftRoot name = mine, right.get? rightRoot name = yours at hpaired ⊢
    cases hpaired with
    | none => exact .none
    | scalar content => exact .none
    | nested hchild => exact .some hchild
  written {mine yours} hsame key := by
    have hpaired := h.paired hsame key
    generalize left.get? mine key = value, right.get? yours key = other at hpaired ⊢
    cases hpaired with
    | none => rfl
    | scalar content => rfl
    | nested hchild => rfl

end Resembles

end Store

namespace Handle

variable {left right : Store} {leftRoot rightRoot mine yours : SectionId} {key : String}

/-- Reading as a text gives the textual form of what is found. -/
theorem readText_eq_asText (store : Store) (handle : Handle) (within : Option String) (key : String) :
    (handle.readText store within key).map Prod.fst = handle.lookup store within key >>= fun found? =>
      match found? with
      | none => .ok none
      | some found => (found.asText key).map some := by
  rw [readText_fst, read_fst]
  rcases handle.lookup store within key with failure | _ | found
  · rfl
  · rfl
  · simp only [bind, Except.bind, Value.asText]
    cases found with
    | nested role id => rfl
    | scalar content =>
        split
        · rename_i hkind
          obtain ⟨text, htext⟩ := Value.eq_text_of_kind hkind
          cases htext
          rfl
        · rfl

section

variable {store : Store} {handle : Handle} {within : Option String} {owner : SectionId}

theorem readText_of_text {raw : String} (howner : handle.owner store within = .ok owner)
    (hraw : store.get? owner key = some (.text raw)) :
    (handle.readText store within key).map Prod.fst = (store.resolve handle.root owner raw).map some := by
  rw [readText_eq_asText, lookup_of_text howner hraw]
  cases store.resolve handle.root owner raw <;> rfl

theorem readText_of_kind_ne {value : Value} (howner : handle.owner store within = .ok owner)
    (hvalue : store.get? owner key = some value) (hkind : value.kind ≠ .scalar .text) :
    (handle.readText store within key).map Prod.fst = (value.asText key).map some := by
  rw [readText_eq_asText, lookup_of_kind_ne howner hvalue hkind]
  rfl

end

theorem owner_of_resembles (h : left.Resembles right leftRoot rightRoot) (within : Option String) :
    (∃ failure, (ofRoot leftRoot).owner left within = .error failure ∧
      (ofRoot rightRoot).owner right within = .error failure) ∨
    ∃ mine yours, (ofRoot leftRoot).owner left within = .ok mine ∧ (ofRoot rightRoot).owner right within = .ok yours ∧
      left.Counterparts right leftRoot rightRoot mine yours := by
  cases within with
  | none => exact .inr ⟨leftRoot, rightRoot, rfl, rfl, [], rfl, rfl⟩
  | some name =>
      have htop := h.alike.topLevel name
      simp only [owner, ofRoot]
      generalize left.child? leftRoot name = mine, right.child? rightRoot name = yours at htop ⊢
      cases htop with
      | none => exact .inl ⟨_, rfl, rfl⟩
      | some hchild => exact .inr ⟨_, _, rfl, rfl, hchild⟩

/-- Trees that look alike give the same texts, and fail alike where they give none. -/
theorem readText_of_resembles (h : left.Resembles right leftRoot rightRoot) (within : Option String) (key : String) :
    ((ofRoot leftRoot).readText left within key).map Prod.fst =
      ((ofRoot rightRoot).readText right within key).map Prod.fst := by
  rw [readText_eq_asText, readText_eq_asText]
  rcases owner_of_resembles h within with ⟨failure, hmine, hyours⟩ | ⟨mine, yours, hmine, hyours, hsame⟩
  · rw [lookup_of_owner_error hmine, lookup_of_owner_error hyours]
  · have hpaired := h.paired hsame key
    generalize hvalue : left.get? mine key = value?, hother : right.get? yours key = other? at hpaired
    cases hpaired with
    | none => rw [lookup_of_none hmine hvalue, lookup_of_none hyours hother]
    | scalar content =>
        by_cases hkind : (Value.scalar content).kind = .scalar .text
        · obtain ⟨raw, hraw⟩ := Value.eq_text_of_kind hkind
          rw [hraw] at hvalue hother
          have hresolve : left.resolve leftRoot mine raw = right.resolve rightRoot yours raw :=
            h.alike.resolve_eq hsame raw
          rw [lookup_of_text hmine hvalue, lookup_of_text hyours hother]
          simp only [ofRoot, hresolve]
        · rw [lookup_of_kind_ne hmine hvalue hkind, lookup_of_kind_ne hyours hother hkind]
    | nested hchild =>
        rw [lookup_of_kind_ne hmine hvalue (by simp [Value.kind]), lookup_of_kind_ne hyours hother (by simp [Value.kind])]
        rfl

end Handle

end LayeredConfig
