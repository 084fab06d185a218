import LayeredConfig.Proofs.Reference.Failures
import Mathlib.Data.List.Chain
import Mathlib.Data.List.Permutation
import Mathlib.Data.Set.Card
import Mathlib.Logic.Relation

/-!
# Cycles of references

An entry refers to the entries that its textual form has references to. A text from which references lead back to an
entry that they came from does not resolve. Resolving knows no cycles, only how deep references may be nested: where they
are nested deeper, there is a chain of that many entries, and with fewer entries than that one stands in it twice.
-/

namespace LayeredConfig

open Text

namespace Store

/-- The textual form of the entry, if it is there and has one. -/
def written (store : Store) (place : SectionId × String) : Option String :=
  (store.get? place.1 place.2).bind Value.render

/-- The text has a reference to the entry, seen from `scope`. -/
def Mentions (store : Store) (root scope : SectionId) (text : List Char) (place : SectionId × String) : Prop :=
  ∃ name ∈ (Template.ofText text).names, store.PointsAt root scope name place.1 place.2

/-- The textual form of the first entry has a reference to the second. -/
def Refers (store : Store) (root : SectionId) (place other : SectionId × String) : Prop :=
  ∃ found, store.written place = some found ∧ store.Mentions root place.1 found.toList other

/-- References lead from the text to an entry, and from the entry to itself. -/
def MeetsCycle (store : Store) (root scope : SectionId) (text : List Char) : Prop :=
  ∃ first entry, store.Mentions root scope text first ∧
    Relation.ReflTransGen (store.Refers root) first entry ∧ Relation.TransGen (store.Refers root) entry entry

/-- The entries of `scope` and of the top-level sections in whose textual form a reference begins. -/
def referring (store : Store) (root scope : SectionId) : Set (SectionId × String) :=
  { place | (place.1 = scope ∨ ∃ name, store.child? root name = some place.1) ∧
    ∃ found, store.written place = some found ∧ referenceMark <:+: found.toList }

/-- References lead from the text through the entries of the chain, and in the text that they end at another one
begins. -/
inductive Leads (store : Store) (root : SectionId) :
    (scope : SectionId) → (text : String) → (chain : List (SectionId × String)) → (deepest : String) → Prop where
  | here {scope text} : referenceMark <:+: text.toList → Leads store root scope text [] text
  | step {scope text place found chain deepest} : store.Mentions root scope text.toList place →
      store.written place = some found → Leads store root place.1 found chain deepest →
      Leads store root scope text (place :: chain) deepest

variable {store : Store} {root scope : SectionId}

theorem PointsAt.unique {name : List Char} {owner owner' : SectionId} {key key' : String}
    (h : store.PointsAt root scope name owner key) (h' : store.PointsAt root scope name owner' key') :
    owner = owner' ∧ key = key' :=
  Prod.mk.inj (Except.ok.inj (h.target.symm.trans h'.target))

theorem Mentions.has_mark {text : List Char} {place : SectionId × String} (h : store.Mentions root scope text place) :
    referenceMark <:+: text := by
  obtain ⟨name, hname, _⟩ := h
  by_contra hplain
  rw [Template.ofText_of_plain hplain] at hname
  cases hname

theorem Mentions.owner {text : List Char} {place : SectionId × String} (h : store.Mentions root scope text place) :
    place.1 = scope ∨ ∃ name, store.child? root name = some place.1 := by
  obtain ⟨name, _, hpoints⟩ := h
  obtain ⟨owner, key⟩ := place
  cases hpoints with
  | here => exact .inl rfl
  | topLevel _ _ _ howner => exact .inr ⟨_, howner⟩

/-! ## A text that resolves -/

/-- A cycle that is met by way of an entry is met from the text of the entry. -/
theorem MeetsCycle.of_entry {first entry : SectionId × String} {found : String}
    (hreaches : Relation.ReflTransGen (store.Refers root) first entry)
    (hcycle : Relation.TransGen (store.Refers root) entry entry) (hwritten : store.written first = some found) :
    store.MeetsCycle root first.1 found.toList := by
  obtain ⟨next, ⟨text, htext, hmentions⟩, hnext⟩ :=
    Relation.TransGen.head'_iff.mp (Relation.TransGen.trans_right hreaches hcycle)
  cases hwritten.symm.trans htext
  exact ⟨next, entry, hmentions, hnext, hcycle⟩

theorem Resolves.not_meetsCycle {text result : List Char} {n : Nat} (h : store.Resolves root scope text result n) :
    ¬ store.MeetsCycle root scope text := by
  induction h with
  | plain hplain =>
      rintro ⟨first, _, hmentions, _⟩
      exact hplain hmentions.has_mark
  | reference hliteral hname hpoints hvalue hrender _ _ ihinner ihrest =>
      rintro ⟨first, entry, ⟨other, hother, hfirst⟩, hreaches, hcycle⟩
      rw [Template.ofText_of_reference hliteral hname] at hother
      -- The first reference was resolved in the text it points at, all others with the rest.
      rcases List.mem_cons.mp hother with rfl | hlater
      · obtain ⟨rfl, rfl⟩ := hpoints.unique hfirst
        apply ihinner
        apply MeetsCycle.of_entry hreaches hcycle
        rw [written, hvalue, Option.bind_some, hrender]
      · exact ihrest ⟨first, entry, ⟨other, hlater, hfirst⟩, hreaches, hcycle⟩

/-! ## References that are nested too deeply -/

theorem Leads.of_resolveTo (limit : Nat) {text deepest : String}
    (h : store.resolveTo root limit scope text = .error (.circularReference deepest)) :
    ∃ chain, chain.length = limit ∧ store.Leads root scope text chain deepest := by
  induction limit generalizing scope text with
  | zero =>
      rw [resolveTo] at h
      split at h
      · rename_i hmark
        cases h
        refine ⟨[], rfl, .here ?_⟩
        by_contra hplain
        simp [mentionsReference, cutAt_eq_none_iff.mpr hplain] at hmark
      · cases h
  | succ limit ih =>
      rw [resolveTo_succ] at h
      rcases Template.expand_eq_error h with hunclosed | ⟨name, hname, hfails⟩
      · cases hunclosed
      · rcases bind_eq_error_iff.mp hfails with hreferenced | ⟨⟨owner, found⟩, hreferenced, hinner⟩
        · cases ofName_of_referenced hreferenced
        · obtain ⟨key, value, hpoints, hvalue, hrender⟩ := referenced_eq_ok_iff.mp hreferenced
          obtain ⟨chain, hlength, hleads⟩ := ih hinner
          refine ⟨(owner, key) :: chain, by rw [List.length_cons, hlength], .step ⟨name, hname, hpoints⟩ ?_ hleads⟩
          rw [written, hvalue, Option.bind_some, hrender]

namespace Leads

variable {text deepest : String} {chain : List (SectionId × String)} {place : SectionId × String}

theorem has_mark (h : store.Leads root scope text chain deepest) : referenceMark <:+: text.toList := by
  cases h with
  | here hmark => exact hmark
  | step hmentions _ _ => exact hmentions.has_mark

theorem mentions_head (h : store.Leads root scope text chain deepest) :
    ∀ first ∈ chain.head?, store.Mentions root scope text.toList first := by
  rintro first hfirst
  cases h with
  | here _ => cases hfirst
  | step hmentions _ _ =>
      cases hfirst
      exact hmentions

theorem isChain (h : store.Leads root scope text chain deepest) : chain.IsChain (store.Refers root) := by
  induction h with
  | here _ => exact .nil
  | step _ hwritten hleads ih =>
      exact List.isChain_cons.mpr ⟨fun next hnext => ⟨_, hwritten, hleads.mentions_head next hnext⟩, ih⟩

theorem written_getLast (h : store.Leads root scope text chain deepest) :
    ∀ last ∈ chain.getLast?, store.written last = some deepest ∧ referenceMark <:+: deepest.toList := by
  induction h with
  | here _ =>
      intro last hlast
      cases hlast
  | @step _ _ place _ chain _ _ hwritten hleads ih =>
      intro last hlast
      cases chain with
      | nil =>
          cases hlast
          cases hleads with
          | here hmark => exact ⟨hwritten, hmark⟩
      | cons next rest =>
          rw [List.getLast?_cons_cons] at hlast
          exact ih last hlast

theorem mem_referring (h : store.Leads root scope text chain deepest) (hplace : place ∈ chain) :
    place ∈ store.referring root scope := by
  induction h with
  | here _ => cases hplace
  | step hmentions hwritten hleads ih =>
      rcases List.mem_cons.mp hplace with rfl | hlater
      · exact ⟨hmentions.owner, _, hwritten, hleads.has_mark⟩
      · obtain ⟨hscope | htop, hfound⟩ := ih hlater
        · exact ⟨hscope ▸ hmentions.owner, hfound⟩
        · exact ⟨.inr htop, hfound⟩

theorem reaches (h : store.Leads root scope text chain deepest) (hplace : place ∈ chain) :
    ∃ first, store.Mentions root scope text.toList first ∧ Relation.ReflTransGen (store.Refers root) first place := by
  induction h with
  | here _ => cases hplace
  | step hmentions hwritten _ ih =>
      rcases List.mem_cons.mp hplace with rfl | hlater
      · exact ⟨_, hmentions, .refl⟩
      · obtain ⟨next, hnext, hreaches⟩ := ih hlater
        exact ⟨_, hmentions, .head ⟨_, hwritten, hnext⟩ hreaches⟩

theorem meetsCycle (h : store.Leads root scope text chain deepest)
    (hfew : (store.referring root scope).encard < chain.length) : store.MeetsCycle root scope text.toList := by
  by_contra hnone
  have hways : chain.Pairwise (Relation.TransGen (store.Refers root)) :=
    List.isChain_iff_pairwise.mp (h.isChain.imp fun _ _ => Relation.TransGen.single)
  -- An entry that stands twice would lead to itself, so the chain has as many entries as it is long.
  have hnodup : chain.Nodup := by
    refine hways.imp_of_mem fun {place other} hplace _ hway hsame => ?_
    subst hsame
    obtain ⟨first, hmentions, hreaches⟩ := h.reaches hplace
    exact hnone ⟨first, place, hmentions, hreaches, hway⟩
  have hsubset : (chain.toFinset : Set (SectionId × String)) ⊆ store.referring root scope :=
    fun place hplace => h.mem_referring (List.mem_toFinset.mp hplace)
  have hmany := Set.encard_le_encard hsubset
  rw [Set.encard_coe_eq_coe_finsetCard, List.toFinset_card_of_nodup hnodup] at hmany
  exact absurd hfew (not_lt.mpr hmany)

end Leads

/-- A text from which references lead into a cycle does not resolve. A text is refused as one only with a chain of as
many entries as references may be nested deep, and where fewer entries than that have references, there is a cycle. -/
theorem resolve_cycle (store : Store) (root scope : SectionId) (text : String) :
    (store.MeetsCycle root scope text.toList → ∀ result, store.resolve root scope text ≠ .ok result) ∧
      ∀ deepest, store.resolve root scope text = .error (.circularReference deepest) →
        (∃ chain : List (SectionId × String), chain.length = 64 ∧ chain.IsChain (store.Refers root) ∧
          (∀ first ∈ chain.head?, store.Mentions root scope text.toList first) ∧
          ∀ last ∈ chain.getLast?, store.written last = some deepest ∧ referenceMark <:+: deepest.toList) ∧
        ((store.referring root scope).encard < 64 → store.MeetsCycle root scope text.toList) := by
  constructor
  · intro hcycle result hresolve
    obtain ⟨_, _, hresolves⟩ := Resolves.of_resolveTo nestingLimit scope text result hresolve
    exact hresolves.not_meetsCycle hcycle
  · intro deepest hresolve
    obtain ⟨chain, hlength, hleads⟩ := Leads.of_resolveTo nestingLimit hresolve
    refine ⟨⟨chain, hlength, hleads.isChain, hleads.mentions_head, hleads.written_getLast⟩, fun hfew => ?_⟩
    apply hleads.meetsCycle
    rw [hlength]
    exact hfew

/-- A store whose only section has two entries that refer to each other. -/
def endlessStore : Store :=
  ⟨#[[("a", .text "$\x7bb\x7d"), ("b", .text "$\x7ba\x7d")], [("s", .nested .plain 0)]]⟩

theorem referring_endlessStore : endlessStore.referring 1 0 ⊆ {(0, "a"), (0, "b")} := by
  rintro ⟨owner, key⟩ ⟨howner, found, hfound, -⟩
  obtain ⟨value, hvalue, -⟩ := Option.bind_eq_some_iff.mp hfound
  have hzero : owner = 0 := by
    rcases howner with rfl | ⟨name, hname⟩
    · rfl
    · obtain ⟨held, hheld, hsection⟩ := Option.bind_eq_some_iff.mp hname
      obtain ⟨_, rfl⟩ : name = "s" ∧ held = .nested .plain 0 := by
        simpa [endlessStore, entries] using Entries.mem_of_get? hheld
      exact (Option.some.inj hsection).symm
  subst hzero
  have hmem : (key, value) ∈ [("a", Value.text "$\x7bb\x7d"), ("b", .text "$\x7ba\x7d")] := Entries.mem_of_get? hvalue
  rcases List.mem_pair.mp hmem with h | h
  · exact .inl (Prod.ext rfl (Prod.mk.inj h).1)
  · exact .inr (Prod.ext rfl (Prod.mk.inj h).1)

theorem resolve_endlessStore :
    endlessStore.resolve 1 0 "<$\x7ba\x7d>" = .error (.circularReference "$\x7ba\x7d") ∧
      endlessStore.MeetsCycle 1 0 "<$\x7ba\x7d>".toList := by
  have hresolve : endlessStore.resolve 1 0 "<$\x7ba\x7d>" = .error (.circularReference "$\x7ba\x7d") := by cbv
  have hfew : (endlessStore.referring 1 0).encard < 64 := by
    refine (Set.encard_le_encard referring_endlessStore).trans_lt ?_
    rw [Set.encard_pair (by decide)]
    decide
  exact ⟨hresolve, ((resolve_cycle endlessStore 1 0 _).2 _ hresolve).2 hfew⟩

end Store

end LayeredConfig
