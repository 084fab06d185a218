import LayeredConfig.Document.Draft
import LayeredConfig.Proofs.Reference.Cycles

/-!
# Names with more than one dot

A reference whose name has a dot after another one, and none in front, goes down further than references go. Resolving
refuses it as soon as it comes to it. A name with a dot in front is a plain name, whatever other dots it has.
-/

namespace LayeredConfig

open Text

/-- The name has more than one dot, and none in front. -/
def MultiLevel (name : List Char) : Prop := name.head? ≠ some '.' ∧ 1 < name.count '.'

theorem Target.ofName_eq_tooDeep_iff {name : List Char} : Target.ofName name = .tooDeep ↔ MultiLevel name := by
  rw [Target.ofName, MultiLevel]
  cases hcut : cutAtChar '.' name with
  | none =>
      have hcount := List.count_eq_zero.mpr (cutAtChar_eq_none_iff.mp hcut)
      simp [hcount]
  | some parts =>
      obtain ⟨head, tail⟩ := parts
      obtain ⟨rfl, hhead⟩ := cutAtChar_eq_some_iff.mp hcut
      cases head with
      | nil => simp
      | cons c head =>
          have hfront : c ≠ '.' := fun h => hhead (h ▸ List.mem_cons_self)
          have hcount : (c :: head ++ '.' :: tail).count '.' = tail.count '.' + 1 := by
            rw [List.count_append, List.count_eq_zero.mpr hhead, List.count_cons_self, Nat.zero_add]
          rw [hcount]
          by_cases htail : '.' ∈ tail
          · simp [htail, hfront, List.count_pos_iff]
          · simp [htail, List.count_eq_zero.mpr htail]

/-- What a text fails of, other than of a reference that is never closed, is the same for every way to report that. -/
theorem Template.expand_eq_error_of_ne {ε : Type} {lookup : List Char → Except ε String} {unclosed failure : ε}
    {template : Template} (h : template.expand lookup unclosed = .error failure) (hne : failure ≠ unclosed)
    (other : ε) : template.expand lookup other = .error failure := by
  induction template with
  | plain text => cases h
  | unclosed before =>
      cases h
      exact absurd rfl hne
  | reference before name rest ih =>
      rcases bind_eq_error_iff.mp h with hname | ⟨value, hvalue, h⟩
      · exact bind_eq_error_iff.mpr (.inl hname)
      · rcases bind_eq_error_iff.mp h with hrest | ⟨remaining, -, h⟩
        · exact bind_eq_error_iff.mpr (.inr ⟨value, hvalue, bind_eq_error_iff.mpr (.inl (ih hrest))⟩)
        · cases h

namespace Store

/-- A reference of that name stands in the text, or in the textual form of an entry that references lead to from it. -/
inductive Involves (store : Store) (root : SectionId) : (scope : SectionId) → (text name : List Char) → Prop where
  | here {scope text name} : name ∈ (Template.ofText text).names → Involves store root scope text name
  | there {scope text place found name} : store.Mentions root scope text place → store.written place = some found →
      Involves store root place.1 found.toList name → Involves store root scope text name

/-- Resolving the text in `scope`, with references nested at most `limit` deep, comes to a reference of that name: all
references that stand before it have been put in. -/
inductive ComesTo (store : Store) (root : SectionId) :
    (limit : Nat) → (scope : SectionId) → (text name : List Char) → Prop where
  | first {limit scope literal name rest} : ¬ referenceMark <:+: literal → '\x7d' ∉ name →
      ComesTo store root (limit + 1) scope (literal ++ referenceMark ++ (name ++ '\x7d' :: rest)) name
  | inside {limit scope literal name rest place found inner} : ¬ referenceMark <:+: literal → '\x7d' ∉ name →
      store.PointsAt root scope name place.1 place.2 → store.written place = some found →
      ComesTo store root limit place.1 found.toList inner →
      ComesTo store root (limit + 1) scope (literal ++ referenceMark ++ (name ++ '\x7d' :: rest)) inner
  | later {limit scope literal name rest place found resolved nesting other} : ¬ referenceMark <:+: literal →
      '\x7d' ∉ name → store.PointsAt root scope name place.1 place.2 → store.written place = some found →
      Resolves store root place.1 found.toList resolved nesting → nesting ≤ limit →
      ComesTo store root (limit + 1) scope rest other →
      ComesTo store root (limit + 1) scope (literal ++ referenceMark ++ (name ++ '\x7d' :: rest)) other

variable {store : Store} {root scope : SectionId}

/-! ## What such a name points at -/

theorem target_eq_invalidReferencePath_iff {name : List Char} {path : String} :
    store.target root scope name = .error (.invalidReferencePath path) ↔
      MultiLevel name ∧ path = String.ofList name := by
  rw [← Target.ofName_eq_tooDeep_iff, target]
  cases Target.ofName name with
  | here key => simp
  | topLevel head key => cases howner : store.child? root head <;> simp [howner]
  | tooDeep => simp [eq_comm]

theorem referenced_eq_invalidReferencePath_iff {name : List Char} {path : String} :
    store.referenced root scope name = .error (.invalidReferencePath path) ↔
      MultiLevel name ∧ path = String.ofList name := by
  rw [← @target_eq_invalidReferencePath_iff store root scope, referenced, bind_eq_error_iff]
  refine or_iff_left ?_
  rintro ⟨⟨owner, key⟩, -, h⟩
  cases hvalue : store.get? owner key with
  | none => simp [hvalue] at h
  | some value => cases hrender : value.render <;> simp [hvalue, hrender] at h

theorem PointsAt.not_multiLevel {name : List Char} {owner : SectionId} {key : String}
    (h : store.PointsAt root scope name owner key) : ¬ MultiLevel name := by
  intro hname
  have hfails : store.target root scope name = .error (.invalidReferencePath (String.ofList name)) :=
    target_eq_invalidReferencePath_iff.mpr ⟨hname, rfl⟩
  rw [h.target] at hfails
  cases hfails

/-! ## A text that resolves -/

theorem Resolves.not_multiLevel {text result name : List Char} {n : Nat}
    (h : store.Resolves root scope text result n) (hinvolves : store.Involves root scope text name) :
    ¬ MultiLevel name := by
  induction h with
  | plain hplain =>
      cases hinvolves with
      | here hname =>
          rw [Template.ofText_of_plain hplain] at hname
          cases hname
      | there hmentions _ _ => exact absurd hmentions.has_mark hplain
  | reference hliteral hclosed hpoints hvalue hrender _ _ ihinner ihrest =>
      -- The first reference was resolved in the text it points at, all others with the rest.
      cases hinvolves with
      | here hname =>
          rw [Template.ofText_of_reference hliteral hclosed] at hname
          rcases List.mem_cons.mp hname with rfl | hlater
          · exact hpoints.not_multiLevel
          · exact ihrest (.here hlater)
      | there hmentions hwritten hinner =>
          obtain ⟨other, hother, hplace⟩ := hmentions
          rw [Template.ofText_of_reference hliteral hclosed] at hother
          rcases List.mem_cons.mp hother with rfl | hlater
          · obtain ⟨rfl, rfl⟩ := hpoints.unique hplace
            rw [written, hvalue, Option.bind_some, hrender] at hwritten
            cases hwritten
            exact ihinner hinner
          · exact ihrest (.there ⟨other, hlater, hplace⟩ hwritten hinner)

/-! ## A reference that is come to -/

theorem referenced_eq_ok_iff_written {name : List Char} {owner : SectionId} {found : String} :
    store.referenced root scope name = .ok (owner, found) ↔
      ∃ key, store.PointsAt root scope name owner key ∧ store.written (owner, key) = some found := by
  simp only [referenced_eq_ok_iff, written, Option.bind_eq_some_iff, exists_and_left]

theorem ComesTo.resolveTo {limit : Nat} {text name : List Char} (h : store.ComesTo root limit scope text name)
    (hname : MultiLevel name) : store.resolveTo root limit scope (String.ofList text) =
      .error (.invalidReferencePath (String.ofList name)) := by
  induction h with
  | first hliteral hclosed =>
      rw [resolveTo_succ, String.toList_ofList, Template.ofText_of_reference hliteral hclosed]
      refine bind_eq_error_iff.mpr (.inl (bind_eq_error_iff.mpr (.inl ?_)))
      exact referenced_eq_invalidReferencePath_iff.mpr ⟨hname, rfl⟩
  | inside hliteral hclosed hpoints hwritten _ ih =>
      rw [String.ofList_toList] at ih
      rw [resolveTo_succ, String.toList_ofList, Template.ofText_of_reference hliteral hclosed]
      have hfound := referenced_eq_ok_iff_written.mpr ⟨_, hpoints, hwritten⟩
      exact bind_eq_error_iff.mpr (.inl (bind_eq_error_iff.mpr (.inr ⟨_, hfound, ih hname⟩)))
  | later hliteral hclosed hpoints hwritten hresolves hnesting _ ih =>
      have hput := hresolves.resolveTo _ hnesting
      rw [String.ofList_toList] at hput
      have hrest := ih hname
      rw [resolveTo_succ, String.toList_ofList] at hrest ⊢
      rw [Template.ofText_of_reference hliteral hclosed]
      have hfound := referenced_eq_ok_iff_written.mpr ⟨_, hpoints, hwritten⟩
      refine bind_eq_error_iff.mpr (.inr ⟨_, bind_eq_ok_iff.mpr ⟨_, hfound, hput⟩, ?_⟩)
      exact bind_eq_error_iff.mpr (.inl (Template.expand_eq_error_of_ne hrest (by simp) _))

/-- A template that is refused has a name in it that is, or one that leads to such a name. -/
theorem ComesTo.of_expand {limit : Nat} {path : String}
    (hvalues : ∀ scope text, store.resolveTo root limit scope text = .error (.invalidReferencePath path) →
      ∃ name, store.ComesTo root limit scope text.toList name ∧ MultiLevel name ∧ path = String.ofList name)
    {text : List Char} {whole : String}
    (h : (Template.ofText text).expand (store.valueOf root limit scope) (.unclosedReference whole) =
      .error (.invalidReferencePath path)) :
    ∃ name, store.ComesTo root (limit + 1) scope text name ∧ MultiLevel name ∧ path = String.ofList name := by
  fun_induction Template.ofText text with
  | case1 text hcut => cases h
  | case2 text before after hcut hend => cases h
  | case3 text before after hcut name rest hend hlt ih =>
      obtain ⟨rfl, hclosed⟩ := cutAtChar_eq_some_iff.mp hend
      have hliteral := not_infix_of_cutAt (by decide) hcut
      obtain rfl := cutAt_eq_some hcut
      rcases bind_eq_error_iff.mp h with hname | ⟨value, hvalue, h⟩
      · rcases bind_eq_error_iff.mp hname with hreferenced | ⟨⟨owner, found⟩, hreferenced, hinner⟩
        · obtain ⟨hdeep, hpath⟩ := referenced_eq_invalidReferencePath_iff.mp hreferenced
          exact ⟨name, .first hliteral hclosed, hdeep, hpath⟩
        · obtain ⟨key, hpoints, hwritten⟩ := referenced_eq_ok_iff_written.mp hreferenced
          obtain ⟨inner, hcomes, hdeep⟩ := hvalues owner found hinner
          exact ⟨inner, .inside hliteral hclosed hpoints hwritten hcomes, hdeep⟩
      · rcases bind_eq_error_iff.mp h with hrest | ⟨remaining, -, h⟩
        · obtain ⟨other, hcomes, hdeep⟩ := ih hrest
          obtain ⟨⟨owner, found⟩, hreferenced, hresolve⟩ := bind_eq_ok_iff.mp hvalue
          obtain ⟨key, hpoints, hwritten⟩ := referenced_eq_ok_iff_written.mp hreferenced
          obtain ⟨nesting, hnesting, hresolves⟩ := Resolves.of_resolveTo limit owner found value hresolve
          exact ⟨other, .later hliteral hclosed hpoints hwritten hresolves hnesting hcomes, hdeep⟩
        · cases h

theorem ComesTo.of_resolveTo (limit : Nat) {text path : String}
    (h : store.resolveTo root limit scope text = .error (.invalidReferencePath path)) :
    ∃ name, store.ComesTo root limit scope text.toList name ∧ MultiLevel name ∧ path = String.ofList name := by
  induction limit generalizing scope text with
  | zero =>
      rw [Store.resolveTo] at h
      split at h
      · cases h
      · cases h
  | succ limit ih => exact ComesTo.of_expand (fun scope text => ih) (resolveTo_succ limit text ▸ h)

/-- A text that resolves has no reference with a name of more than one dot, unless the first is in front, and neither has
any text that its references lead to. Resolving fails as such a name is refused exactly if it comes to a reference with
that name. -/
theorem resolve_multiLevel (store : Store) (root scope : SectionId) (text : String) :
    (∀ result, store.resolve root scope text = .ok result →
      ∀ name, store.Involves root scope text.toList name → ¬ MultiLevel name) ∧
      ∀ name : List Char, store.resolve root scope text = .error (.invalidReferencePath (String.ofList name)) ↔
        store.ComesTo root 64 scope text.toList name ∧ MultiLevel name := by
  constructor
  · intro result hresolve name hinvolves
    obtain ⟨_, _, hresolves⟩ := Resolves.of_resolveTo nestingLimit scope text result hresolve
    exact hresolves.not_multiLevel hinvolves
  · intro name
    constructor
    · intro hresolve
      obtain ⟨found, hcomes, hdeep, hpath⟩ := ComesTo.of_resolveTo nestingLimit hresolve
      obtain rfl := String.ofList_injective hpath
      exact ⟨hcomes, hdeep⟩
    · rintro ⟨hcomes, hdeep⟩
      have hresolve := hcomes.resolveTo hdeep
      rwa [String.ofList_toList] at hresolve

/-- A store with a document in which one reference comes before and one in the text of another that goes too deep. -/
def steppedStore : SectionId × Store :=
  empty.addDocument (Document.ofText "s:\n- a: 1\n- b: <$\x7bs.a\x7d, $\x7bx..y\x7d>\n")

theorem resolve_steppedStore :
    (steppedStore.2.resolve 1 0 "$\x7ba\x7d" = .ok "1" ∧ steppedStore.2.Involves 1 0 "$\x7ba\x7d".toList "a".toList ∧
      ¬ MultiLevel "a".toList) ∧
      steppedStore.2.resolve 1 0 "$\x7bb\x7d" = .error (.invalidReferencePath "x..y") ∧
      steppedStore.2.ComesTo 1 64 0 "$\x7bb\x7d".toList "x..y".toList ∧ MultiLevel "x..y".toList := by
  have hplain : steppedStore.2.resolve 1 0 "$\x7ba\x7d" = .ok "1" := by cbv
  have hnames : (Template.ofText "$\x7ba\x7d".toList).names = ["a".toList] := by cbv
  have hinvolves : steppedStore.2.Involves 1 0 "$\x7ba\x7d".toList "a".toList :=
    .here (hnames ▸ List.mem_singleton_self _)
  have hdeep : steppedStore.2.resolve 1 0 "$\x7bb\x7d" = .error (.invalidReferencePath "x..y") := by cbv
  exact ⟨⟨hplain, hinvolves, (resolve_multiLevel steppedStore.2 1 0 _).1 _ hplain _ hinvolves⟩, hdeep,
    ((resolve_multiLevel steppedStore.2 1 0 "$\x7bb\x7d").2 "x..y".toList).mp hdeep⟩

/-- A store with a document in which a key has two dots, the first of them in front. -/
def dottedStore : SectionId × Store := empty.addDocument (Document.ofText "s:\n- .a.b: 1\n")

/-- A name with a dot in front is looked for as it is, also if it has more of them. -/
theorem not_forall_count_dot_le_one :
    ¬ ∀ (store : Store) (root scope : SectionId) (text result : String), store.resolve root scope text = .ok result →
      ∀ name, store.Involves root scope text.toList name → name.count '.' ≤ 1 := by
  intro h
  have hresolve : dottedStore.2.resolve 1 0 "$\x7b.a.b\x7d" = .ok "1" := by cbv
  have hnames : (Template.ofText "$\x7b.a.b\x7d".toList).names = [".a.b".toList] := by cbv
  have hinvolves : dottedStore.2.Involves 1 0 "$\x7b.a.b\x7d".toList ".a.b".toList :=
    .here (hnames ▸ List.mem_singleton_self _)
  have hcount := h _ _ _ _ _ hresolve _ hinvolves
  exact absurd hcount (by decide)

end Store

end LayeredConfig
