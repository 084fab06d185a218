import LayeredConfig.Store.Basic

/-!
# Outlines

The outline of a section is the finite tree that unfolds from it. A section that is met again inside
itself is not unfolded a second time: the outline says which of the sections around it it is.
-/

namespace LayeredConfig

/-- What stands under a key of an unfolded section. -/
inductive Outline where
  | scalar (value : Scalar)
  /-- A section with everything in it. -/
  | nested (role : Role) (id : SectionId) (entries : List (String × Outline))
  /-- The section that is open at `depth` around this place, the outermost being 0. -/
  | again (role : Role) (depth : Nat)

private theorem countP_lt_countP_of_mem {α : Type} {p q : α → Bool} {a : α} (hpq : ∀ x, p x → q x)
    (hp : p a = false) (hq : q a = true) {l : List α} (ha : a ∈ l) : l.countP p < l.countP q := by
  induction l with
  | nil => cases ha
  | cons b l ih =>
    have hle : l.countP p ≤ l.countP q := List.countP_mono_left fun x _ => hpq x
    rcases List.mem_cons.mp ha with rfl | hmem
    · simp only [List.countP_cons, hp, hq]
      simp only [Bool.false_eq_true, if_false, if_true]
      omega
    · have hlt := ih hmem
      have hstep : (if p b then 1 else 0) ≤ if q b then 1 else 0 := by
        split
        · rename_i hb
          exact Nat.le_of_eq (if_pos (hpq b hb)).symm
        · exact Nat.zero_le _
      simp only [List.countP_cons]
      omega

namespace Store

/-- The number of sections that are not in `opened`. -/
def unopened (store : Store) (opened : List SectionId) : Nat :=
  (List.range store.size).countP fun id => id ∉ opened

theorem unopened_cons_lt {store : Store} {opened : List SectionId} {id : SectionId}
    (hid : id < store.size) (hopened : id ∉ opened) :
    store.unopened (id :: opened) < store.unopened opened := by
  apply countP_lt_countP_of_mem (a := id)
  · simp only [decide_eq_true_eq, List.mem_cons, not_or]
    exact fun x hx => hx.2
  · simp
  · simpa using hopened
  · simpa using hid

/-- The outline of a section in a place where the sections of `opened` are open, innermost first. -/
def outlineWithin (store : Store) (opened : List SectionId) (role : Role) (id : SectionId) : Outline :=
  if hopened : id ∈ opened then .again role (opened.reverse.idxOf id)
  else if hid : id < store.size then
    .nested role id <| (store.entries id).map fun entry =>
      (entry.1,
        match entry.2 with
        | .scalar value => .scalar value
        | .nested role child =>
          have := unopened_cons_lt hid hopened
          store.outlineWithin (id :: opened) role child)
  else .nested role id []
termination_by store.unopened opened

def outline (store : Store) (id : SectionId) : Outline := store.outlineWithin [] .plain id

end Store

end LayeredConfig
