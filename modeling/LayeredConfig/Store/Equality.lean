import LayeredConfig.Store.Basic

/-!
# Equality of sections

Two sections are equal if they are the same one, or if their entries are as many and equal one by one and
in order. Sections with more or fewer entries are unequal before anything in them is looked at. Scalars of
different kinds differ, and so do a section as it was read and one that was handed out.
-/

namespace LayeredConfig.Store

/-- Equality of values, given equality of sections. -/
def valuesEqual (sectionsEqual : SectionId → SectionId → Bool) : Value → Value → Bool
  | .scalar left, .scalar right => left == right
  | .nested role left, .nested role' right => role == role' && sectionsEqual left right
  | _, _ => false

/-- Equality of entry lists of one length, given equality of sections. -/
def entriesEqual (sectionsEqual : SectionId → SectionId → Bool) : Entries Value → Entries Value → Bool
  | [], [] => true
  | left :: lefts, right :: rights =>
    left.1 == right.1 && valuesEqual sectionsEqual left.2 right.2
      && entriesEqual sectionsEqual lefts rights
  | _, _ => false

/-- Compares sections down to `limit` levels. -/
def sectionsEqualTo (store : Store) : (limit : Nat) → (left right : SectionId) → Bool
  | 0, _, _ => false
  | limit + 1, left, right =>
    left == right
      || (store.entries left).length == (store.entries right).length
        && entriesEqual (store.sectionsEqualTo limit) (store.entries left) (store.entries right)

/-- Equality of sections. A comparison that goes deeper than there are pairs of sections would come back
to a pair that it is comparing already. -/
def sectionsEqual (store : Store) (left right : SectionId) : Bool :=
  store.sectionsEqualTo (store.size * store.size + 1) left right

end LayeredConfig.Store
