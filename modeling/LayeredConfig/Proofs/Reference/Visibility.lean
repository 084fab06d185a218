import LayeredConfig.Proofs.Reference.Likeness
import Mathlib.Data.List.Permutation
import Mathlib.Data.Set.Basic

/-!
# What references can see

Every reference on the way from a text leads to an entry of the section that the text stands in, or of a section
directly in the root. So a text resolves to the same in two stores that agree on these sections and on the root, and writes
to deeper sections do not change what it resolves to.
-/

namespace LayeredConfig.Store

/-- The root, the sections directly in it, and the section that a text stands in. -/
def seen (store : Store) (root scope : SectionId) : Set SectionId :=
  { id | id = root ∨ id = scope ∨ ∃ name, store.child? root name = some id }

/-- Writes values, each to a section and under a key, one after another. -/
def writeAll (store : Store) (writes : List (SectionId × String × Value)) : Store :=
  writes.foldl (fun store write => store.insert write.1 write.2.1 write.2.2) store

variable {store left right : Store} {root scope id : SectionId}

/-! ## Stores that agree on what is seen -/

theorem alike_of_seen (h : ∀ id ∈ left.seen root scope, ∀ key, left.get? id key = right.get? id key) :
    left.Alike right root root fun mine yours =>
      mine = yours ∧ (mine = scope ∨ ∃ name, left.child? root name = some mine) where
  topLevel name := by
    have hroot : right.child? root name = left.child? root name := by
      rw [child?, child?, h root (.inl rfl)]
    rw [hroot]
    cases hchild : left.child? root name with
    | none => exact .none
    | some child => exact .some ⟨rfl, .inr ⟨name, hchild⟩⟩
  written := by
    rintro mine _ ⟨rfl, hmine⟩ key
    rw [h mine (.inr hmine)]

theorem resolve_eq_of_seen (h : ∀ id ∈ left.seen root scope, ∀ key, left.get? id key = right.get? id key)
    (text : String) : left.resolve root scope text = right.resolve root scope text :=
  (alike_of_seen h).resolve_eq ⟨rfl, .inl rfl⟩ text

/-! ## Writes elsewhere -/

theorem entries_writeAll {writes : List (SectionId × String × Value)} (h : ∀ write ∈ writes, write.1 ≠ id) :
    (store.writeAll writes).entries id = store.entries id := by
  induction writes generalizing store with
  | nil => rfl
  | cons write writes ih =>
      obtain ⟨hfirst, hlater⟩ := List.forall_mem_cons.mp h
      exact (ih hlater).trans (entries_insert_of_ne hfirst write.2.1 write.2.2)

/-- What a text resolves to depends on the entries of the root, of the sections directly in it, and of the section that
the text stands in. Writes to other sections do not change it. -/
theorem resolve_of_seen (root scope : SectionId) :
    (∀ left right : Store, (∀ id ∈ left.seen root scope, ∀ key, left.get? id key = right.get? id key) →
      ∀ text, left.resolve root scope text = right.resolve root scope text) ∧
      ∀ (store : Store) writes, (∀ write ∈ writes, write.1 ∉ store.seen root scope) →
        ∀ text, (store.writeAll writes).resolve root scope text = store.resolve root scope text := by
  refine ⟨fun left right => resolve_eq_of_seen, fun store writes hunseen text => ?_⟩
  refine (resolve_eq_of_seen (fun id hid key => ?_) text).symm
  have hentries : (store.writeAll writes).entries id = store.entries id :=
    entries_writeAll fun write hwrite heq => hunseen write hwrite (heq ▸ hid)
  rw [get?, get?, hentries]

/-- A section that `deep` stands in, below the one top-level section, and a section of its own that refers to both. -/
def tieredStore (deep : String) : Store :=
  ⟨#[[("c", .text deep)], [("port", .text "80"), ("in", .nested .plain 0)],
    [("url", .text "h:$\x7bs.port\x7d"), ("c", .text "6")], [("s", .nested .plain 1)]]⟩

theorem not_mem_seen_tieredStore (deep : String) : 0 ∉ (tieredStore deep).seen 3 2 := by
  rintro (h | h | ⟨name, hname⟩)
  · cases h
  · cases h
  · obtain ⟨held, hheld, hsection⟩ := Option.bind_eq_some_iff.mp hname
    obtain ⟨-, rfl⟩ : name = "s" ∧ held = .nested .plain 1 := by
      simpa [tieredStore, entries] using Entries.mem_of_get? hheld
    cases hsection

theorem resolve_tieredStore :
    (∀ id ∈ (tieredStore "5").seen 3 2, ∀ key, (tieredStore "5").get? id key = (tieredStore "7").get? id key) ∧
      (tieredStore "5").resolve 3 2 "$\x7burl\x7d/$\x7bc\x7d" = (tieredStore "7").resolve 3 2 "$\x7burl\x7d/$\x7bc\x7d" ∧
      ((tieredStore "5").writeAll [(0, "c", .text "9"), (0, "d", .nested .plain 1)]).resolve 3 2 "$\x7burl\x7d/$\x7bc\x7d" =
        (tieredStore "5").resolve 3 2 "$\x7burl\x7d/$\x7bc\x7d" ∧
      (tieredStore "5").resolve 3 2 "$\x7burl\x7d/$\x7bc\x7d" = .ok "h:80/6" := by
  have hagree : ∀ id ∈ (tieredStore "5").seen 3 2, ∀ key, (tieredStore "5").get? id key = (tieredStore "7").get? id key := by
    intro id hid key
    rcases id with _ | id
    · exact absurd hid (not_mem_seen_tieredStore "5")
    · rfl
  refine ⟨hagree, (resolve_of_seen 3 2).1 _ _ hagree _, (resolve_of_seen 3 2).2 _ _ ?_ _, by cbv⟩
  simpa using not_mem_seen_tieredStore "5"

end LayeredConfig.Store
