import LayeredConfig.Document.Node
import Mathlib.Data.List.Induction

/-!
# Documents as writings

A document can be told by what is written into each of its sections, one entry after the other. Sections are
known by numbers here, so that a writing says where it goes without a path of keys. The document that the
writings unfold to is unique, and a further writing into the innermost of some sections that lie in one another
is what `Document.insertAt` does along their keys.
-/

namespace LayeredConfig

/-- What is written under a key. -/
inductive Content where
  | text (value : String)
  /-- A new section, which is known by its number from then on. -/
  | opened (number : Nat)
  deriving DecidableEq, Repr

/-- An entry that is written into the section `owner`, or into the document itself. -/
structure Writing where
  owner : Option Nat
  key : String
  content : Content
  deriving DecidableEq, Repr

namespace Writing

/-- What the writings leave in a section. -/
def entriesOf (writings : List Writing) (owner : Option Nat) : Entries Content :=
  Entries.merge [] ((writings.filter (·.owner = owner)).map fun writing => (writing.key, writing.content))

/-- Every section is opened once, after the one that it lies in. -/
def Ordered (writings : List Writing) : Prop :=
  ∀ writing ∈ writings, ∀ number, writing.content = .opened number →
    (∀ owner ∈ writing.owner, owner < number) ∧
      ∀ other ∈ writings, other.content = .opened number → other = writing

end Writing

mutual
/-- `node` is what `content` stands for, if the sections hold `entriesOf`. -/
inductive Content.Unfolds (entriesOf : Option Nat → Entries Content) : Content → Node → Prop where
  | text {value} : Content.Unfolds entriesOf (.text value) (.text value)
  | opened {number nodes} : Entries.Unfold entriesOf (entriesOf (some number)) nodes →
      Content.Unfolds entriesOf (.opened number) (.branch nodes)

inductive Entries.Unfold (entriesOf : Option Nat → Entries Content) :
    Entries Content → Document → Prop where
  | nil : Entries.Unfold entriesOf [] []
  | cons {key content node entries nodes} : Content.Unfolds entriesOf content node →
      Entries.Unfold entriesOf entries nodes →
      Entries.Unfold entriesOf ((key, content) :: entries) ((key, node) :: nodes)
end

variable {before after : Option Nat → Entries Content}

mutual
theorem Content.Unfolds.unique {content left right} (hleft : Content.Unfolds before content left)
    (hright : Content.Unfolds before content right) : left = right := by
  match hleft, hright with
  | .text, .text => rfl
  | .opened hl, .opened hr => rw [Entries.Unfold.unique hl hr]

theorem Entries.Unfold.unique {entries left right} (hleft : Entries.Unfold before entries left)
    (hright : Entries.Unfold before entries right) : left = right := by
  match hleft, hright with
  | .nil, .nil => rfl
  | .cons hl hls, .cons hr hrs => rw [Content.Unfolds.unique hl hr, Entries.Unfold.unique hls hrs]
end

/-! ## Sections that a change leaves alone -/

/-- The number of a section, if the content is one, belongs to `kept`. -/
def Content.In (kept : Nat → Prop) (content : Content) : Prop :=
  ∀ number, content = .opened number → kept number

mutual
theorem Content.Unfolds.transport {kept : Nat → Prop}
    (hagree : ∀ number, kept number → after (some number) = before (some number))
    (hclosed : ∀ number, kept number → ∀ entry ∈ before (some number), Content.In kept entry.2)
    {content node} (h : Content.Unfolds before content node) (hkept : Content.In kept content) :
    Content.Unfolds after content node := by
  match h with
  | .text => exact .text
  | @Content.Unfolds.opened _ number _ hnodes =>
      have hnumber := hkept number rfl
      refine .opened ?_
      rw [hagree number hnumber]
      exact Entries.Unfold.transport hagree hclosed hnodes (hclosed number hnumber)

theorem Entries.Unfold.transport {kept : Nat → Prop}
    (hagree : ∀ number, kept number → after (some number) = before (some number))
    (hclosed : ∀ number, kept number → ∀ entry ∈ before (some number), Content.In kept entry.2)
    {entries nodes} (h : Entries.Unfold before entries nodes)
    (hkept : ∀ entry ∈ entries, Content.In kept entry.2) : Entries.Unfold after entries nodes := by
  match h with
  | .nil => exact .nil
  | .cons hnode hnodes =>
      exact .cons (Content.Unfolds.transport hagree hclosed hnode (hkept (_, _) List.mem_cons_self))
        (Entries.Unfold.transport hagree hclosed hnodes fun entry he => hkept entry (by simp [he]))
end

theorem Entries.Unfold.insert {entries nodes key content node} (h : Entries.Unfold before entries nodes)
    (hnode : Content.Unfolds before content node) :
    Entries.Unfold before (Entries.insert entries key content) (Entries.insert nodes key node) := by
  cases h with
  | nil => exact .cons hnode .nil
  | @cons first _ _ _ _ hhead hrest =>
      by_cases hkey : first = key
      · simp only [Entries.insert, hkey, if_true]
        exact .cons hnode hrest
      · simp only [Entries.insert, hkey, if_false]
        exact .cons hhead (hrest.insert hnode)

theorem Entries.Unfold.imp {entries nodes} (h : Entries.Unfold before entries nodes)
    (himp : ∀ entry ∈ entries, ∀ node, Content.Unfolds before entry.2 node →
      Content.Unfolds after entry.2 node) : Entries.Unfold after entries nodes := by
  match h with
  | .nil => exact .nil
  | .cons hnode hnodes =>
      exact .cons (himp (_, _) List.mem_cons_self _ hnode)
        (hnodes.imp fun entry he => himp entry (List.mem_cons_of_mem _ he))

/-- A change under one key of a section, where all that lies under other keys unfolds as before. -/
theorem Entries.Unfold.modify {entries nodes key change} (h : Entries.Unfold before entries nodes)
    (hnodup : entries.keys.Nodup)
    (hkey : ∀ content node, (key, content) ∈ entries → Content.Unfolds before content node →
      Content.Unfolds after content (change node))
    (hother : ∀ other content node, (other, content) ∈ entries → other ≠ key →
      Content.Unfolds before content node → Content.Unfolds after content node) :
    Entries.Unfold after entries (Entries.modify nodes key change) := by
  cases h with
  | nil => exact .nil
  | @cons first content node _ _ hnode hrest =>
      simp only [Entries.keys_cons, List.nodup_cons] at hnodup
      by_cases hfirst : first = key
      · subst hfirst
        simp only [Entries.modify, if_true]
        refine .cons (hkey content node (by simp) hnode) (hrest.imp ?_)
        rintro ⟨other, content⟩ hmem node
        refine hother other content node (by simp [hmem]) ?_
        rintro rfl
        exact hnodup.1 (List.mem_map_of_mem hmem)
      · simp only [Entries.modify, hfirst, if_false]
        refine .cons (hother first content node (by simp) hfirst hnode) ?_
        exact hrest.modify hnodup.2 (fun content node hmem => hkey content node (by simp [hmem]))
          (fun other content node hmem => hother other content node (by simp [hmem]))

/-! ## What the writings leave -/

namespace Writing

variable {writings : List Writing} {writing : Writing}

theorem entriesOf_concat (writings : List Writing) (writing : Writing) (owner : Option Nat) :
    entriesOf (writings ++ [writing]) owner =
      if writing.owner = owner then (entriesOf writings owner).insert writing.key writing.content
      else entriesOf writings owner := by
  by_cases h : writing.owner = owner <;> simp [entriesOf, Entries.merge, h]

theorem nodup_keys_entriesOf (writings : List Writing) (owner : Option Nat) :
    (entriesOf writings owner).keys.Nodup := by
  induction writings using List.reverseRecOn with
  | nil => exact List.nodup_nil
  | append_singleton writings writing ih =>
      rw [entriesOf_concat]
      split
      · exact Entries.nodup_keys_insert ih _ _
      · exact ih

theorem mem_of_mem_entriesOf {owner key content} (h : (key, content) ∈ entriesOf writings owner) :
    ⟨owner, key, content⟩ ∈ writings := by
  induction writings using List.reverseRecOn with
  | nil => cases h
  | append_singleton writings writing ih =>
      rw [entriesOf_concat] at h
      split at h
      · rename_i howner
        rcases Entries.mem_insert h with heq | hmem
        · obtain ⟨rfl, rfl⟩ := Prod.mk.inj heq
          simp [← howner]
        · exact List.mem_append_left _ (ih hmem)
      · exact List.mem_append_left _ (ih h)

theorem entriesOf_eq_nil {owner} (h : ∀ writing ∈ writings, writing.owner ≠ owner) :
    entriesOf writings owner = [] := by
  refine List.eq_nil_iff_forall_not_mem.mpr ?_
  rintro ⟨key, content⟩ hmem
  exact h _ (mem_of_mem_entriesOf hmem) rfl

/-! ## Sections that lie in one another -/

/-- The section that the last of some numbered sections is, or `owner` if there is none. -/
def innermost (owner : Option Nat) : List (Nat × String) → Option Nat
  | [] => owner
  | (number, _) :: rest => innermost (some number) rest

theorem innermost_eq (owner : Option Nat) (stack : List (Nat × String)) :
    innermost owner stack = (stack.getLast?.map Prod.fst).or owner := by
  induction stack generalizing owner with
  | nil => rfl
  | cons entry rest ih =>
      rw [innermost, ih]
      cases rest with
      | nil => rfl
      | cons next rest => simp [List.getLast?_cons]

/-- Each section is found in the one before it under its key, and the first one in `owner`. -/
inductive Nested (writings : List Writing) : Option Nat → List (Nat × String) → Prop where
  | nil {owner} : Nested writings owner []
  | cons {owner number key rest} : (key, .opened number) ∈ entriesOf writings owner →
      Nested writings (some number) rest → Nested writings owner ((number, key) :: rest)

theorem Nested.left {owner inner outer} (h : Nested writings owner (outer ++ inner)) :
    Nested writings owner outer := by
  induction outer generalizing owner with
  | nil => exact .nil
  | cons entry outer ih => cases h with | cons hmem hrest => exact .cons hmem (ih hrest)

theorem Nested.concat {owner stack number key} (h : Nested writings owner stack)
    (hmem : (key, .opened number) ∈ entriesOf writings (innermost owner stack)) :
    Nested writings owner (stack ++ [(number, key)]) := by
  induction h with
  | nil => exact .cons hmem .nil
  | cons hfirst _ ih => exact .cons hfirst (ih hmem)

theorem Nested.exists_owner {owner stack number} (h : Nested writings owner stack)
    (hnumber : number ∈ stack.map Prod.fst) :
    ∃ above key, ⟨above, key, .opened number⟩ ∈ writings ∧
      (above = owner ∨ ∃ outer ∈ stack.map Prod.fst, above = some outer) := by
  induction h with
  | nil => cases hnumber
  | @cons owner first key rest hmem _ ih =>
      rcases List.mem_cons.mp hnumber with rfl | hrest
      · exact ⟨owner, key, mem_of_mem_entriesOf hmem, .inl rfl⟩
      · obtain ⟨above, key', hwritten, rfl | ⟨outer, houter, rfl⟩⟩ := ih hrest
        · exact ⟨_, key', hwritten, .inr ⟨first, by simp, rfl⟩⟩
        · exact ⟨_, key', hwritten, .inr ⟨outer, List.mem_cons_of_mem _ houter, rfl⟩⟩

theorem innermost_cons_mem (number : Nat) (key : String) (rest : List (Nat × String)) :
    ∃ inner ∈ ((number, key) :: rest).map Prod.fst, innermost (some number) rest = some inner := by
  induction rest generalizing number key with
  | nil => exact ⟨number, by simp, rfl⟩
  | cons entry rest ih =>
      obtain ⟨inner, hinner, heq⟩ := ih entry.1 entry.2
      exact ⟨inner, List.mem_cons_of_mem _ hinner, heq⟩

/-- The section is younger than `owner` and none of some sections that lie in it. -/
def Beside (owner : Option Nat) (stack : List (Nat × String)) (number : Nat) : Prop :=
  (∀ above ∈ owner, above < number) ∧ number ∉ stack.map Prod.fst

variable (hwritings : Ordered writings)

include hwritings

theorem Nested.lt {owner stack number above} (h : Nested writings owner stack)
    (hnumber : number ∈ stack.map Prod.fst) (habove : above ∈ owner) : above < number := by
  induction h generalizing above with
  | nil => cases hnumber
  | cons hmem _ ih =>
      have hfirst := (hwritings _ (mem_of_mem_entriesOf hmem) _ rfl).1 _ habove
      rcases List.mem_cons.mp hnumber with rfl | hrest
      · exact hfirst
      · exact Nat.lt_trans hfirst (ih hrest rfl)

theorem Nested.innermost_ne {owner number key rest}
    (h : Nested writings owner ((number, key) :: rest)) : innermost (some number) rest ≠ owner := by
  intro heq
  obtain ⟨inner, hinner, hsome⟩ := innermost_cons_mem number key rest
  exact Nat.lt_irrefl inner (h.lt hwritings hinner (heq.symm.trans hsome))

/-! ## A further writing -/

/-- A writing into the innermost section leaves the sections around it in their places. -/
theorem Nested.write {owner stack} (h : Nested writings owner stack)
    (howner : writing.owner = innermost owner stack) :
    Nested (writings ++ [writing]) owner stack := by
  induction stack generalizing owner with
  | nil => exact .nil
  | cons entry rest ih =>
      obtain ⟨number, key⟩ := entry
      have hne := h.innermost_ne hwritings
      cases h with
      | cons hmem hrest =>
          refine .cons ?_ (ih hrest howner)
          rw [entriesOf_concat, if_neg (fun heq => hne (howner.symm.trans heq))]
          exact hmem

omit hwritings in
theorem innermost_ne_of_beside {owner stack number} (h : Beside owner stack number) :
    innermost owner stack ≠ some number := by
  intro heq
  cases stack with
  | nil => exact Nat.lt_irrefl number (h.1 number heq)
  | cons entry rest =>
      obtain ⟨inner, hinner, hsome⟩ := innermost_cons_mem entry.1 entry.2 rest
      cases hsome.symm.trans heq
      exact h.2 hinner

theorem Nested.beside_of_mem {owner stack number key content} (h : Nested writings owner stack)
    (hnumber : Beside owner stack number) (hmem : (key, content) ∈ entriesOf writings (some number)) :
    Content.In (Beside owner stack) content := by
  intro inner hinner
  obtain ⟨hlt, hunique⟩ := hwritings _ (mem_of_mem_entriesOf hmem) inner hinner
  refine ⟨fun above habove => Nat.lt_trans (hnumber.1 above habove) (hlt number rfl), fun hstack => ?_⟩
  obtain ⟨above, key, hopened, habove⟩ := h.exists_owner hstack
  have heq : above = some number := congrArg Writing.owner (hunique _ hopened rfl)
  subst heq
  rcases habove with howner | ⟨outer, houter, hsome⟩
  · exact Nat.lt_irrefl number (hnumber.1 number howner.symm)
  · cases hsome
    exact hnumber.2 houter

theorem Nested.unfolds_beside {owner stack content node} (h : Nested writings owner stack)
    (howner : writing.owner = innermost owner stack) (hcontent : Content.In (Beside owner stack) content)
    (hnode : Content.Unfolds (entriesOf writings) content node) :
    Content.Unfolds (entriesOf (writings ++ [writing])) content node := by
  refine hnode.transport ?_ ?_ hcontent
  · intro number hnumber
    rw [entriesOf_concat, if_neg]
    rw [howner]
    exact innermost_ne_of_beside hnumber
  · rintro number hnumber ⟨key, content⟩ hmem
    exact h.beside_of_mem hwritings hnumber hmem

theorem Nested.beside_of_ne {owner number key rest other content}
    (h : Nested writings owner ((number, key) :: rest))
    (hmem : (other, content) ∈ entriesOf writings owner) (hne : other ≠ key) :
    Content.In (Beside owner ((number, key) :: rest)) content := by
  rintro inner rfl
  have hwritten := mem_of_mem_entriesOf hmem
  obtain ⟨hlt, hunique⟩ := hwritings _ hwritten inner rfl
  refine ⟨hlt, fun hstack => ?_⟩
  cases h with
  | cons hfirst hrest =>
      rcases List.mem_cons.mp hstack with rfl | hinner
      · have heq := hunique _ (mem_of_mem_entriesOf hfirst) rfl
        exact hne (congrArg Writing.key heq).symm
      · obtain ⟨above, key', hopened, habove⟩ := hrest.exists_owner hinner
        have heq : above = owner := congrArg Writing.owner (hunique _ hopened rfl)
        subst heq
        rcases habove with hsome | ⟨outer, houter, hsome⟩
        · exact Nat.lt_irrefl number ((hwritings _ (mem_of_mem_entriesOf hfirst) _ rfl).1 number hsome)
        · have hfirst' := (hwritings _ (mem_of_mem_entriesOf hfirst) _ rfl).1 outer hsome
          exact Nat.lt_irrefl number (Nat.lt_trans (hrest.lt hwritings houter rfl) hfirst')

/-- A writing into the innermost section changes the document along the keys of the sections around it. -/
theorem unfold_write {owner stack nodes node} (hstack : Nested writings owner stack)
    (howner : writing.owner = innermost owner stack)
    (h : Entries.Unfold (entriesOf writings) (entriesOf writings owner) nodes)
    (hnode : Content.Unfolds (entriesOf (writings ++ [writing])) writing.content node) :
    Entries.Unfold (entriesOf (writings ++ [writing])) (entriesOf (writings ++ [writing]) owner)
      (Document.insertAt nodes (stack.map Prod.snd) writing.key node) := by
  induction stack generalizing owner nodes with
  | nil =>
      rw [entriesOf_concat, if_pos (show writing.owner = owner from howner)]
      simp only [List.map_nil, Document.insertAt]
      refine Entries.Unfold.insert (h.imp ?_) hnode
      rintro ⟨key, content⟩ hmem child
      refine hstack.unfolds_beside hwritings howner fun number hnumber => ⟨?_, by simp⟩
      exact (hwritings _ (mem_of_mem_entriesOf hmem) number hnumber).1
  | cons entry rest ih =>
      obtain ⟨number, key⟩ := entry
      have hne := hstack.innermost_ne hwritings
      rw [entriesOf_concat, if_neg (fun heq => hne (howner.symm.trans heq))]
      simp only [List.map_cons, Document.insertAt]
      refine h.modify (nodup_keys_entriesOf writings owner) ?_ ?_
      · intro content child hmem hchild
        cases hstack with
        | cons hfirst hrest =>
            have hget := Entries.get?_of_mem (nodup_keys_entriesOf writings owner) hfirst
            rw [Entries.get?_of_mem (nodup_keys_entriesOf writings owner) hmem] at hget
            cases hget
            cases hchild with
            | opened hnodes => exact .opened (ih hrest howner hnodes)
      · intro other content child hmem hother hchild
        exact hstack.unfolds_beside hwritings howner (hstack.beside_of_ne hwritings hmem hother) hchild

end Writing

end LayeredConfig
