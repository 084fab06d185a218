import LayeredConfig.Proofs.Document.Joined
import LayeredConfig.Proofs.Document.Listing
import LayeredConfig.Proofs.Store.Planting

/-!
# A document over another one

Putting a document into the section that another one was read into gives the tree of both texts one after the other,
if the second text does not begin in the middle of a section.
-/

namespace LayeredConfig

open Text

theorem Listing.isMarked_of_head? {text : String} {column : Nat} {item : Item}
    (h : ((lines text.toList).map Line.ofText).head? = some (.marked column item)) :
    Listing.isMarked (lines text.toList) 0 = true := by
  cases hlines : lines text.toList with
  | nil => simp [hlines] at h
  | cons line rest =>
      have hline : Line.ofText line = .marked column item := by simpa [hlines] using h
      simpa [isMarked, Listing.line] using Line.head?_of_marked hline

namespace Store

/-- A text whose first line is not marked goes over the text before it: putting its document into the section of the
first one gives the tree of both texts as one. Its sections take the places of those of the same names, and the others
come after them. -/
theorem merge_ofText {front back : String} (h : Listing.isMarked (lines back.toList) 0 = false) (store : Store) :
    let joined := Document.ofText (front ++ "\n" ++ back)
    let planted := store.addDocument (Document.ofText front)
    (∀ path, (planted.2.merge planted.1 (Document.ofText back)).shapeAt (.nested .plain planted.1) path =
        (Node.branch joined).shapeAt path) ∧
      joined.keys = (Document.ofText front).keys ++
        (Document.ofText back).keys.filter (· ∉ (Document.ofText front).keys) ∧
      ∀ name, joined.get? name = ((Document.ofText back).get? name).or ((Document.ofText front).get? name) := by
  intro joined planted
  have hjoined : joined = Entries.merge (Document.ofText front) (Document.ofText back) := by
    refine Document.ofText_append fun column item hmarked => ?_
    rw [Listing.isMarked_of_head? hmarked] at h
    cases h
  have hnodup : (Document.ofText back).keys.Nodup := (Document.legible_ofText back).1
  rw [hjoined]
  refine ⟨fun path => ?_, Entries.keys_merge hnodup _, Entries.get?_merge hnodup _⟩
  have hplanted := store.addDocument_planted (Document.ofText front)
  exact (merge_shapeAt hplanted.spread (Document.ofText back)).2 _ path (hplanted.shapeAt_eq path)

/-- The first text ends inside a section in a section, and the second one begins with a blank line and has a section of the
same name. -/
theorem merge_serverTexts :
    let front := "server:\n- host: a\n- deep:\n  - port: 1"
    let back := "\nlog:\n- level: info\nserver:\n- host: b"
    let joined := Document.ofText (front ++ "\n" ++ back)
    let planted := Store.empty.addDocument (Document.ofText front)
    Listing.isMarked (lines back.toList) 0 = false ∧ joined.keys = ["server", "log"] ∧
      joined.get? "server" = some (.branch [("host", .text "b")]) ∧
      ∀ path, (planted.2.merge planted.1 (Document.ofText back)).shapeAt (.nested .plain planted.1) path =
        (Node.branch joined).shapeAt path := by
  intro front back joined planted
  have hunmarked : Listing.isMarked (lines "\nlog:\n- level: info\nserver:\n- host: b".toList) 0 = false := by rfl
  have hfront : Document.ofText "server:\n- host: a\n- deep:\n  - port: 1" =
      [("server", .branch [("host", .text "a"), ("deep", .branch [("port", .text "1")])])] := by rfl
  have hback : Document.ofText "\nlog:\n- level: info\nserver:\n- host: b" =
      [("log", .branch [("level", .text "info")]), ("server", .branch [("host", .text "b")])] := by rfl
  obtain ⟨hshape, hkeys, hget⟩ := @merge_ofText front back hunmarked .empty
  refine ⟨hunmarked, ?_, ?_, hshape⟩
  · rw [hkeys, hfront, hback]
    decide
  · rw [hget, hback]
    rfl

end Store

end LayeredConfig
