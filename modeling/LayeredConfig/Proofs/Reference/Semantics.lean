import LayeredConfig.Proofs.Text.Cut
import LayeredConfig.Reference.Resolution

/-!
# What references mean

A text with references in it resolves to a text, with the number of references that lie in each other on the
way. The relation knows no limit; resolving finds it out as long as that number is within the limit.
-/

namespace LayeredConfig

open Text

/-! ## Templates -/

theorem Template.ofText_of_plain {text : List Char} (h : ¬ referenceMark <:+: text) :
    Template.ofText text = .plain text := by
  rw [Template.ofText]
  split
  · rfl
  · rename_i hcut
    rw [cutAt_eq_none_iff.mpr h] at hcut
    cases hcut

theorem Template.ofText_of_reference {literal name : List Char} (hliteral : ¬ referenceMark <:+: literal)
    (hname : '\x7d' ∉ name) (rest : List Char) :
    Template.ofText (literal ++ referenceMark ++ (name ++ '\x7d' :: rest)) =
      .reference literal name (Template.ofText rest) := by
  have hfirst : cutAt referenceMark (literal ++ referenceMark ++ (name ++ '\x7d' :: rest)) =
      some (literal, name ++ '\x7d' :: rest) := cutAt_append_of_not_infix (by decide) hliteral _
  rw [Template.ofText]
  split
  · rename_i hcut
    rw [hfirst] at hcut
    cases hcut
  · rename_i before after hcut
    rw [hfirst] at hcut
    obtain ⟨rfl, rfl⟩ := Prod.mk.inj (Option.some.inj hcut)
    split
    · rename_i hend
      rw [cutAtChar_append hname] at hend
      cases hend
    · rename_i found remaining hend
      rw [cutAtChar_append hname] at hend
      obtain ⟨rfl, rfl⟩ := Prod.mk.inj (Option.some.inj hend)
      rfl

/-- What is expanded does not depend on how the text fails that is never closed. -/
theorem Template.expand_eq_ok {ε : Type} {lookup : List Char → Except ε String} {unclosed : ε}
    {template : Template} {result : String} (h : template.expand lookup unclosed = .ok result) (other : ε) :
    template.expand lookup other = .ok result := by
  induction template generalizing result with
  | plain text => exact h
  | unclosed before => cases h
  | reference before name rest ih =>
      obtain ⟨value, hvalue, h⟩ := bind_eq_ok_iff.mp h
      obtain ⟨remaining, hremaining, h⟩ := bind_eq_ok_iff.mp h
      exact bind_eq_ok_iff.mpr ⟨value, hvalue, bind_eq_ok_iff.mpr ⟨remaining, ih hremaining, h⟩⟩

namespace Store

/-- What the name in a reference points at, seen from `scope`. -/
inductive PointsAt (store : Store) (root scope : SectionId) :
    (name : List Char) → (owner : SectionId) → (key : String) → Prop where
  | here {name} : ('.' ∉ name ∨ name.head? = some '.') →
      PointsAt store root scope name scope (String.ofList name)
  | topLevel {head tail owner} : head ≠ [] → '.' ∉ head → '.' ∉ tail →
      store.child? root (String.ofList head) = some owner →
      PointsAt store root scope (head ++ '.' :: tail) owner (String.ofList tail)

/-- The text resolves in `scope` to another one, with references that lie `nesting` deep in each other. -/
inductive Resolves (store : Store) (root : SectionId) :
    (scope : SectionId) → (text result : List Char) → (nesting : Nat) → Prop where
  | plain {scope text} : ¬ referenceMark <:+: text → Resolves store root scope text text 0
  | reference {scope literal name rest owner key value found resolved remaining inner nesting} :
      ¬ referenceMark <:+: literal → '\x7d' ∉ name →
      store.PointsAt root scope name owner key →
      store.get? owner key = some value → value.render = some found →
      Resolves store root owner found.toList resolved inner →
      Resolves store root scope rest remaining nesting →
      Resolves store root scope (literal ++ referenceMark ++ (name ++ '\x7d' :: rest))
        (literal ++ resolved ++ remaining) (max (inner + 1) nesting)

/-- What is put in for a reference, with `limit` more references in it allowed. -/
def valueOf (store : Store) (root : SectionId) (limit : Nat) (scope : SectionId) (name : List Char) :
    Except Failure String := do
  let (owner, found) ← store.referenced root scope name
  store.resolveTo root limit owner found

variable {store : Store} {root scope : SectionId}

/-! ## Names -/

theorem PointsAt.of_target {name : List Char} {owner : SectionId} {key : String}
    (h : store.target root scope name = .ok (owner, key)) : store.PointsAt root scope name owner key := by
  unfold target Target.ofName at h
  cases hcut : cutAtChar '.' name with
  | none =>
      rw [hcut] at h
      cases h
      exact .here (.inl (cutAtChar_eq_none_iff.mp hcut))
  | some parts =>
      obtain ⟨head, tail⟩ := parts
      obtain ⟨rfl, hhead⟩ := cutAtChar_eq_some_iff.mp hcut
      rw [hcut] at h
      cases head with
      | nil =>
          cases h
          exact .here (.inr rfl)
      | cons c head =>
          by_cases htail : '.' ∈ tail
          · simp only [htail, if_true] at h
            cases h
          · simp only [htail, if_false] at h
            cases howner : store.child? root (String.ofList (c :: head)) with
            | none =>
                rw [howner] at h
                cases h
            | some found =>
                rw [howner] at h
                cases h
                exact .topLevel (List.cons_ne_nil c head) hhead htail howner

theorem PointsAt.target {name : List Char} {owner : SectionId} {key : String}
    (h : store.PointsAt root scope name owner key) : store.target root scope name = .ok (owner, key) := by
  cases h with
  | here hname =>
      have hplain : Target.ofName name = .here (String.ofList name) := by
        rcases hname with hdot | hdot
        · rw [Target.ofName, cutAtChar_eq_none_iff.mpr hdot]
        · obtain ⟨rest, rfl⟩ := List.head?_eq_some_iff.mp hdot
          rfl
      rw [Store.target, hplain]
  | @topLevel head tail owner hhead hplain htail howner =>
      obtain ⟨c, head, rfl⟩ := List.exists_cons_of_ne_nil hhead
      have htop : Target.ofName (c :: head ++ '.' :: tail) =
          .topLevel (String.ofList (c :: head)) (String.ofList tail) := by
        rw [Target.ofName, cutAtChar_append hplain]
        exact if_neg htail
      simp only [Store.target, htop, howner]

theorem referenced_eq_ok_iff {name : List Char} {owner : SectionId} {found : String} :
    store.referenced root scope name = .ok (owner, found) ↔
      ∃ key value, store.PointsAt root scope name owner key ∧ store.get? owner key = some value ∧
        value.render = some found := by
  constructor
  · intro h
    obtain ⟨⟨place, key⟩, htarget, h⟩ := bind_eq_ok_iff.mp h
    cases hvalue : store.get? place key with
    | none =>
        simp only [hvalue] at h
        cases h
    | some value =>
        simp only [hvalue] at h
        cases hrender : value.render with
        | none =>
            rw [hrender] at h
            cases h
        | some text =>
            rw [hrender] at h
            cases h
            exact ⟨key, value, .of_target htarget, hvalue, hrender⟩
  · rintro ⟨key, value, hpoints, hvalue, hrender⟩
    refine bind_eq_ok_iff.mpr ⟨(owner, key), hpoints.target, ?_⟩
    simp only [hvalue, hrender]

/-! ## Resolving -/

theorem resolveTo_succ (limit : Nat) (text : String) :
    store.resolveTo root (limit + 1) scope text =
      (Template.ofText text.toList).expand (store.valueOf root limit scope) (.unclosedReference text) := rfl

theorem valueOf_eq_ok_iff {limit : Nat} {name : List Char} {resolved : String} :
    store.valueOf root limit scope name = .ok resolved ↔
      ∃ owner key value found, store.PointsAt root scope name owner key ∧
        store.get? owner key = some value ∧ value.render = some found ∧
          store.resolveTo root limit owner found = .ok resolved := by
  constructor
  · intro h
    obtain ⟨⟨owner, found⟩, hreferenced, hresolve⟩ := bind_eq_ok_iff.mp h
    obtain ⟨key, value, hpoints, hvalue, hrender⟩ := referenced_eq_ok_iff.mp hreferenced
    exact ⟨owner, key, value, found, hpoints, hvalue, hrender, hresolve⟩
  · rintro ⟨owner, key, value, found, hpoints, hvalue, hrender, hresolve⟩
    have hreferenced := referenced_eq_ok_iff.mpr ⟨key, value, hpoints, hvalue, hrender⟩
    exact bind_eq_ok_iff.mpr ⟨(owner, found), hreferenced, hresolve⟩

theorem resolveTo_of_plain {text : List Char} (h : ¬ referenceMark <:+: text) (limit : Nat) :
    store.resolveTo root limit scope (String.ofList text) = .ok (String.ofList text) := by
  cases limit with
  | zero => rw [resolveTo, if_neg]; simp [mentionsReference, cutAt_eq_none_iff.mpr h]
  | succ limit => rw [resolveTo_succ, String.toList_ofList, Template.ofText_of_plain h]; rfl

theorem resolve_of_plain {text : String} (h : ¬ referenceMark <:+: text.toList) :
    store.resolve root scope text = .ok text := by
  rw [← String.ofList_toList (s := text)]
  exact resolveTo_of_plain h nestingLimit

/-- What is expanded from a text has a derivation, if what is put in has one each time. -/
theorem Resolves.of_expand {limit : Nat}
    (hvalues : ∀ scope text result, store.resolveTo root limit scope text = .ok result →
      ∃ n ≤ limit, store.Resolves root scope text.toList result.toList n)
    {text : List Char} {failure : Failure} {result : String}
    (h : (Template.ofText text).expand (store.valueOf root limit scope) failure = .ok result) :
    ∃ n ≤ limit + 1, store.Resolves root scope text result.toList n := by
  fun_induction Template.ofText text generalizing result with
  | case1 text hcut =>
      cases h
      rw [String.toList_ofList]
      exact ⟨0, Nat.zero_le _, .plain (cutAt_eq_none_iff.mp hcut)⟩
  | case2 text before after hcut hend => cases h
  | case3 text before after hcut name rest hend hlt ih =>
      obtain ⟨resolved, hresolved, h⟩ := bind_eq_ok_iff.mp h
      obtain ⟨remaining, hremaining, h⟩ := bind_eq_ok_iff.mp h
      cases h
      obtain ⟨owner, key, value, found, hpoints, hvalue, hrender, hresolve⟩ :=
        valueOf_eq_ok_iff.mp hresolved
      obtain ⟨inner, hinner, hinnerResolves⟩ := hvalues owner found resolved hresolve
      obtain ⟨nesting, hnesting, hrest⟩ := ih hremaining
      obtain ⟨rfl, hname⟩ := cutAtChar_eq_some_iff.mp hend
      obtain rfl := cutAt_eq_some hcut
      refine ⟨max (inner + 1) nesting, by omega, ?_⟩
      have hliteral := not_infix_of_cutAt (by decide) hcut
      simpa using Resolves.reference hliteral hname hpoints hvalue hrender hinnerResolves hrest

theorem Resolves.of_resolveTo (limit : Nat) (scope : SectionId) (text result : String)
    (h : store.resolveTo root limit scope text = .ok result) :
    ∃ n ≤ limit, store.Resolves root scope text.toList result.toList n := by
  induction limit generalizing scope text result with
  | zero =>
      rw [resolveTo] at h
      split at h
      · cases h
      · rename_i hmentions
        cases h
        refine ⟨0, Nat.le_refl 0, .plain (cutAt_eq_none_iff.mp ?_)⟩
        simpa [mentionsReference] using hmentions
  | succ limit ih => exact Resolves.of_expand ih (resolveTo_succ limit text ▸ h)

theorem Resolves.resolveTo {text result : List Char} {n : Nat} (h : store.Resolves root scope text result n)
    (limit : Nat) (hlimit : n ≤ limit) :
    store.resolveTo root limit scope (String.ofList text) = .ok (String.ofList result) := by
  induction h generalizing limit with
  | plain hplain => exact resolveTo_of_plain hplain limit
  | @reference scope literal name rest owner key value found resolved remaining inner nesting hliteral hname
      hpoints hvalue hrender _ _ ihinner ihrest =>
      obtain ⟨limit, rfl⟩ : ∃ below, limit = below + 1 := ⟨limit - 1, by omega⟩
      have hinner := ihinner limit (by omega)
      have hrest := ihrest (limit + 1) (by omega)
      rw [String.ofList_toList] at hinner
      rw [resolveTo_succ, String.toList_ofList] at hrest ⊢
      have hput := valueOf_eq_ok_iff.mpr ⟨owner, key, value, found, hpoints, hvalue, hrender, hinner⟩
      rw [Template.ofText_of_reference hliteral hname rest]
      refine bind_eq_ok_iff.mpr ⟨_, hput, bind_eq_ok_iff.mpr ⟨_, Template.expand_eq_ok hrest _, ?_⟩⟩
      simp [pure, Except.pure]

/-- Resolving a text gives what it resolves to, wherever references lie at most 64 deep in each other, and
fails everywhere else. -/
theorem resolve_eq_ok_iff_resolves (store : Store) (root scope : SectionId) (text result : String) :
    store.resolve root scope text = .ok result ↔
      ∃ n ≤ 64, store.Resolves root scope text.toList result.toList n := by
  constructor
  · exact Resolves.of_resolveTo nestingLimit scope text result
  · rintro ⟨n, hn, h⟩
    have hresolve := h.resolveTo nestingLimit hn
    rwa [String.ofList_toList, String.ofList_toList] at hresolve

end Store

end LayeredConfig
