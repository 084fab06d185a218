import LayeredConfig.Proofs.Projection.Walk
import LayeredConfig.Proofs.Store.Region

/-!
# Equality and unfoldings

The unfolding of a section is the tree of everything in it, without the names of sections. Sections from which no cycle
is reached have one, and two of them are equal exactly if their unfoldings are the same tree, whichever sections they
share.
-/

namespace LayeredConfig

/-- What unfolds from a value. -/
inductive Unfolding where
  | scalar (content : Scalar)
  | nested (role : Role) (entries : List (String × Unfolding))

namespace Store

mutual

inductive ValueUnfolds (store : Store) : Value → Unfolding → Prop where
  | scalar {content} : ValueUnfolds store (.scalar content) (.scalar content)
  | nested {role id unfolded} : EntriesUnfold store (store.entries id) unfolded →
      ValueUnfolds store (.nested role id) (.nested role unfolded)

/-- The entries unfold one by one and in order, under the keys that they have. -/
inductive EntriesUnfold (store : Store) : Entries Value → List (String × Unfolding) → Prop where
  | nil : EntriesUnfold store [] []
  | cons {key value unfolding rest unfolded} : ValueUnfolds store value unfolding → EntriesUnfold store rest unfolded →
      EntriesUnfold store ((key, value) :: rest) ((key, unfolding) :: unfolded)

end

/-- The tree of everything in a section. -/
def Unfolds (store : Store) (id : SectionId) (unfolded : List (String × Unfolding)) : Prop :=
  store.EntriesUnfold (store.entries id) unfolded

/-- No section that can be reached stands in itself. -/
def Acyclic (store : Store) (id : SectionId) : Prop :=
  ∀ inner, store.Reaches id inner → ¬ Relation.TransGen store.Links inner inner

variable {store : Store} {id left right child : SectionId} {opened : List SectionId}
  {unfolded leftUnfolded rightUnfolded : List (String × Unfolding)}

/-! ## Unfoldings -/

mutual

theorem ValueUnfolds.unique {value : Value} {unfolding other : Unfolding} (h : store.ValueUnfolds value unfolding)
    (hother : store.ValueUnfolds value other) : unfolding = other := by
  match h, hother with
  | .scalar, .scalar => rfl
  | .nested hentries, .nested hothers => rw [hentries.unique hothers]

theorem EntriesUnfold.unique {entries : Entries Value} {unfolded other : List (String × Unfolding)}
    (h : store.EntriesUnfold entries unfolded) (hother : store.EntriesUnfold entries other) : unfolded = other := by
  match h, hother with
  | .nil, .nil => rfl
  | .cons hvalue hrest, .cons hvalue' hrest' => rw [hvalue.unique hvalue', hrest.unique hrest']

end

theorem EntriesUnfold.length_eq {entries : Entries Value} {unfolded : List (String × Unfolding)}
    (h : store.EntriesUnfold entries unfolded) :
    entries.length = unfolded.length := by
  match h with
  | .nil => rfl
  | .cons _ hrest => rw [List.length_cons, List.length_cons, hrest.length_eq]

theorem exists_entriesUnfold {entries : Entries Value}
    (h : ∀ entry ∈ entries, ∃ unfolding, store.ValueUnfolds entry.2 unfolding) :
    ∃ unfolded, store.EntriesUnfold entries unfolded := by
  induction entries with
  | nil => exact ⟨[], .nil⟩
  | cons entry rest ih =>
      obtain ⟨hentry, hrest⟩ := List.forall_mem_cons.mp h
      obtain ⟨unfolding, hunfolding⟩ := hentry
      obtain ⟨unfolded, hunfolded⟩ := ih hrest
      exact ⟨(entry.1, unfolding) :: unfolded, .cons hunfolding hunfolded⟩

/-! ## Ways down without a cycle -/

theorem Acyclic.of_links (h : store.Acyclic id) (hlink : store.Links id child) : store.Acyclic child :=
  fun inner hinner => h inner (.head hlink hinner)

/-- On a way down without a cycle none of the sections that were passed is reached again. -/
theorem Acyclic.not_reaches_opened (h : store.Acyclic id) (hopened : ∀ outer ∈ opened, ¬ store.Reaches id outer)
    (hlink : store.Links id child) : ∀ outer ∈ id :: opened, ¬ store.Reaches child outer := by
  intro outer houter hreaches
  rcases List.mem_cons.mp houter with rfl | hmem
  · exact h outer .refl (.head' hlink hreaches)
  · exact hopened outer hmem (.head hlink hreaches)

theorem Acyclic.exists_unfolds_within (hopened : ∀ outer ∈ opened, ¬ store.Reaches id outer) (h : store.Acyclic id) :
    ∃ unfolded, store.Unfolds id unfolded := by
  induction opened, id using store.walk_induction with
  | step opened id ih =>
      refine exists_entriesUnfold fun entry hentry => ?_
      obtain ⟨key, value⟩ := entry
      cases value with
      | scalar content => exact ⟨.scalar content, .scalar⟩
      | nested role child =>
          have hlink : store.Links id child := ⟨_, hentry, rfl⟩
          have hnew : id ∉ opened := fun hmem => hopened id hmem .refl
          obtain ⟨unfolded, hunfolded⟩ := ih hnew (lt_size_of_mem_entries hentry) child
            (h.not_reaches_opened hopened hlink) (h.of_links hlink)
          exact ⟨.nested role unfolded, .nested hunfolded⟩

theorem Acyclic.exists_unfolds (h : store.Acyclic id) : ∃ unfolded, store.Unfolds id unfolded :=
  exists_unfolds_within (List.forall_mem_nil _) h

/-! ## Equality -/

/-- The test is right about the section of the value, compared with any other. -/
def ComparesAt (store : Store) (sectionsEqual : SectionId → SectionId → Bool) (value : Value) : Prop :=
  ∀ left, value.section? = some left → ∀ right leftUnfolded rightUnfolded,
    store.Unfolds left leftUnfolded → store.Unfolds right rightUnfolded →
      (sectionsEqual left right = true ↔ leftUnfolded = rightUnfolded)

theorem valuesEqual_iff {sectionsEqual : SectionId → SectionId → Bool} {value other : Value}
    {unfolding otherUnfolding : Unfolding} (hcompares : store.ComparesAt sectionsEqual value)
    (hvalue : store.ValueUnfolds value unfolding) (hother : store.ValueUnfolds other otherUnfolding) :
    valuesEqual sectionsEqual value other = true ↔ unfolding = otherUnfolding := by
  cases hvalue with
  | scalar => cases hother <;> simp [valuesEqual]
  | nested hentries =>
      cases hother with
      | scalar => simp [valuesEqual]
      | nested hothers => simp [valuesEqual, hcompares _ rfl _ _ _ hentries hothers]

theorem entriesEqual_iff {sectionsEqual : SectionId → SectionId → Bool} {entries others : Entries Value}
    (hcompares : ∀ entry ∈ entries, store.ComparesAt sectionsEqual entry.2)
    (hentries : store.EntriesUnfold entries leftUnfolded) (hothers : store.EntriesUnfold others rightUnfolded) :
    entriesEqual sectionsEqual entries others = true ↔ leftUnfolded = rightUnfolded := by
  induction entries generalizing others leftUnfolded rightUnfolded with
  | nil =>
      cases hentries
      cases hothers <;> simp [entriesEqual]
  | cons entry rest ih =>
      obtain ⟨hentry, hrest⟩ := List.forall_mem_cons.mp hcompares
      cases hentries with
      | cons hvalue hvalues =>
          cases hothers with
          | nil => simp [entriesEqual]
          | cons hother hothers =>
              simp [entriesEqual, valuesEqual_iff hentry hvalue hother, ih hrest hvalues hothers]

/-- Comparing goes on for no more levels than there are sections that were not passed on the way down. -/
theorem sectionsEqualTo_iff {limit : Nat} (hlimit : store.unopened opened < limit)
    (hopened : ∀ outer ∈ opened, ¬ store.Reaches left outer) (hacyclic : store.Acyclic left)
    (hleft : store.Unfolds left leftUnfolded) (hright : store.Unfolds right rightUnfolded) :
    store.sectionsEqualTo limit left right = true ↔ leftUnfolded = rightUnfolded := by
  induction limit generalizing opened left right leftUnfolded rightUnfolded with
  | zero => exact absurd hlimit (Nat.not_lt_zero _)
  | succ limit ih =>
      rw [sectionsEqualTo, Bool.or_eq_true, beq_iff_eq]
      by_cases hsame : left = right
      · subst hsame
        exact iff_of_true (.inl rfl) (hleft.unique hright)
      rw [or_iff_right hsame]
      have hcompares : ∀ entry ∈ store.entries left, store.ComparesAt (store.sectionsEqualTo limit) entry.2 := by
        intro entry hentry child hsection right leftUnfolded rightUnfolded hleft hright
        have hlink : store.Links left child := ⟨entry, hentry, hsection⟩
        have hnew : left ∉ opened := fun hmem => hopened left hmem .refl
        have hfewer := unopened_cons_lt (lt_size_of_mem_entries hentry) hnew
        exact ih (Nat.lt_of_lt_of_le hfewer (Nat.le_of_lt_succ hlimit)) (hacyclic.not_reaches_opened hopened hlink)
          (hacyclic.of_links hlink) hleft hright
      rw [Bool.and_eq_true, beq_iff_eq, entriesEqual_iff hcompares hleft hright]
      refine and_iff_right_of_imp fun heq => ?_
      rw [EntriesUnfold.length_eq hleft, EntriesUnfold.length_eq hright, heq]

theorem sectionsEqual_iff (hacyclic : store.Acyclic left) (hleft : store.Unfolds left leftUnfolded)
    (hright : store.Unfolds right rightUnfolded) :
    store.sectionsEqual left right = true ↔ leftUnfolded = rightUnfolded := by
  refine sectionsEqualTo_iff ?_ (List.forall_mem_nil _) hacyclic hleft hright
  have hsections : store.unopened [] ≤ store.size := by simp [unopened]
  exact Nat.lt_succ_of_le (hsections.trans (Nat.le_mul_self _))

theorem sectionsEqual_iff_exists (hleft : store.Acyclic left) (hright : store.Acyclic right) :
    store.sectionsEqual left right = true ↔ ∃ unfolded, store.Unfolds left unfolded ∧ store.Unfolds right unfolded := by
  constructor
  · intro h
    obtain ⟨leftUnfolded, hleftUnfolds⟩ := hleft.exists_unfolds
    obtain ⟨rightUnfolded, hrightUnfolds⟩ := hright.exists_unfolds
    obtain rfl := (sectionsEqual_iff hleft hleftUnfolds hrightUnfolds).mp h
    exact ⟨leftUnfolded, hleftUnfolds, hrightUnfolds⟩
  · rintro ⟨unfolded, hleftUnfolds, hrightUnfolds⟩
    exact (sectionsEqual_iff hleft hleftUnfolds hrightUnfolds).mpr rfl

theorem Acyclic.equivalence (store : Store) :
    Equivalence fun left right : { handle : Handle // store.Acyclic handle.scope } => left.1.equal store right.1 = true where
  refl := by
    rintro ⟨handle, hacyclic⟩
    obtain ⟨unfolded, hunfolds⟩ := hacyclic.exists_unfolds
    exact (sectionsEqual_iff_exists hacyclic hacyclic).mpr ⟨unfolded, hunfolds, hunfolds⟩
  symm := by
    rintro ⟨left, hleft⟩ ⟨right, hright⟩ h
    obtain ⟨unfolded, hleftUnfolds, hrightUnfolds⟩ := (sectionsEqual_iff_exists hleft hright).mp h
    exact (sectionsEqual_iff_exists hright hleft).mpr ⟨unfolded, hrightUnfolds, hleftUnfolds⟩
  trans := by
    rintro ⟨left, hleft⟩ ⟨middle, hmiddle⟩ ⟨right, hright⟩ h hnext
    obtain ⟨unfolded, hleftUnfolds, hmiddleUnfolds⟩ := (sectionsEqual_iff_exists hleft hmiddle).mp h
    obtain ⟨other, hotherUnfolds, hrightUnfolds⟩ := (sectionsEqual_iff_exists hmiddle hright).mp hnext
    obtain rfl := hmiddleUnfolds.unique hotherUnfolds
    exact (sectionsEqual_iff_exists hleft hright).mpr ⟨unfolded, hleftUnfolds, hrightUnfolds⟩

/-- A section from which no cycle is reached has one unfolding, and equality of two such sections is that of their
unfoldings. So equality of handles on them is an equivalence, and two pairs of sections with the same unfoldings compare
alike, in one store or in two, whichever sections are shared there. -/
theorem sectionsEqual_iff_unfolds (store : Store) :
    (∀ id, store.Acyclic id → ∃! unfolded, store.Unfolds id unfolded) ∧
      (∀ left right, store.Acyclic left → store.Acyclic right →
        (store.sectionsEqual left right = true ↔
          ∃ unfolded, store.Unfolds left unfolded ∧ store.Unfolds right unfolded)) ∧
      (Equivalence fun left right : { handle : Handle // store.Acyclic handle.scope } =>
        left.1.equal store right.1 = true) ∧
      ∀ (other : Store) (left right left' right' : SectionId) (leftUnfolded rightUnfolded : List (String × Unfolding)),
        store.Acyclic left → store.Unfolds left leftUnfolded → store.Unfolds right rightUnfolded →
        other.Acyclic left' → other.Unfolds left' leftUnfolded → other.Unfolds right' rightUnfolded →
        store.sectionsEqual left right = other.sectionsEqual left' right' := by
  refine ⟨?unique, fun left right => sectionsEqual_iff_exists, Acyclic.equivalence store, ?shared⟩
  case unique =>
    intro id hacyclic
    obtain ⟨unfolded, hunfolds⟩ := hacyclic.exists_unfolds
    exact ⟨unfolded, hunfolds, fun other hother => hother.unique hunfolds⟩
  case shared =>
    intro other left right left' right' leftUnfolded rightUnfolded hleft hleftUnfolds hrightUnfolds hleft' hleftUnfolds'
      hrightUnfolds'
    rw [Bool.eq_iff_iff, sectionsEqual_iff hleft hleftUnfolds hrightUnfolds,
      sectionsEqual_iff hleft' hleftUnfolds' hrightUnfolds']

/-! ## A section that stands twice in another -/

theorem acyclic_of_links_lt (h : ∀ parent child, store.Links parent child → child < parent) (id : SectionId) :
    store.Acyclic id := by
  intro inner _ hcycle
  have hlt {parent child : SectionId} (hway : Relation.TransGen store.Links parent child) : child < parent := by
    induction hway with
    | single hlink => exact h _ _ hlink
    | tail _ hlink ih => exact (h _ _ hlink).trans ih
  exact Nat.lt_irrefl inner (hlt hcycle)

/-- A store in which the section 1 has one section under two keys, and the section 4 has two of the same contents. -/
def sharingStore : Store :=
  ⟨#[[("k", .text "1")], [("a", .nested .plain 0), ("b", .nested .plain 0)], [("k", .text "1")], [("k", .text "1")],
    [("a", .nested .plain 2), ("b", .nested .plain 3)]]⟩

theorem links_lt_sharingStore (parent child : SectionId) (h : sharingStore.Links parent child) : child < parent := by
  obtain ⟨entry, hentry, hsection⟩ := h
  have hbelow : ∀ parent < sharingStore.size, ∀ entry ∈ sharingStore.entries parent,
      entry.2.section?.all (· < parent) = true := by decide
  have hparent := hbelow parent (lt_size_of_mem_entries hentry) entry hentry
  rw [hsection] at hparent
  exact of_decide_eq_true hparent

theorem unfolds_sharingStore :
    (sharingStore.Acyclic 1 ∧ sharingStore.Acyclic 4 ∧ sharingStore.sectionsEqual 1 4 = true) ∧
      (∃ unfolded, sharingStore.Unfolds 1 unfolded ∧ sharingStore.Unfolds 4 unfolded) ∧
      sharingStore.sectionsEqual 1 4 = sharingStore.sectionsEqual 4 1 := by
  have hleft := acyclic_of_links_lt links_lt_sharingStore 1
  have hright := acyclic_of_links_lt links_lt_sharingStore 4
  have hequal : sharingStore.sectionsEqual 1 4 = true := by decide
  obtain ⟨-, hsame, -, hshared⟩ := sectionsEqual_iff_unfolds sharingStore
  obtain ⟨unfolded, hleftUnfolds, hrightUnfolds⟩ := (hsame 1 4 hleft hright).mp hequal
  exact ⟨⟨hleft, hright, hequal⟩, ⟨unfolded, hleftUnfolds, hrightUnfolds⟩,
    hshared sharingStore 1 4 4 1 _ _ hleft hleftUnfolds hrightUnfolds hright hrightUnfolds hleftUnfolds⟩

end Store

end LayeredConfig
