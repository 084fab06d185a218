import LayeredConfig.Proofs.Handle.Reading
import LayeredConfig.Proofs.Handle.Repeated
import LayeredConfig.Proofs.Items.Joined
import Mathlib

/-!
# Switching between accessors

An entry that was read as a number or a truth value holds a scalar written in a certain form, and goes on doing so in
whichever kinds it is read afterwards: each of them is converted from that form, and written in it again.
-/

namespace LayeredConfig

/-! ## Forms -/

/-- The scalar is written in that form, and denoted by it. -/
def Scalar.WrittenAs (content : Scalar) (form : String) : Prop :=
  content.render = form ∧ Scalar.ofText? content.kind form = some content

/-- The entry holds a scalar of that form. -/
def Store.Shows (store : Store) (owner : SectionId) (key form : String) : Prop :=
  ∃ content, store.get? owner key = some (.scalar content) ∧ content.WrittenAs form

theorem Decimal.int32?_render (n : Int) :
    int32? (render n).toList =
      if Int32.minValue.toInt ≤ n ∧ n ≤ Int32.maxValue.toInt then some (Int32.ofInt n) else none := by
  rw [render, String.toList_ofList, int32?, int?_ofInt, Option.bind_some]

namespace Scalar

theorem writtenAs_int (n : Int32) : (Scalar.int n).WrittenAs (Decimal.render n.toInt) := by
  refine ⟨rfl, ?_⟩
  rw [kind, ofText?, Decimal.int32?_render, if_pos ⟨n.minValue_le_toInt, n.toInt_le⟩, Int32.ofInt_toInt, Option.map_some]

theorem writtenAs_long (n : Int64) : (Scalar.long n).WrittenAs (Decimal.render n.toInt) := by
  refine ⟨rfl, ?_⟩
  rw [kind, ofText?, Decimal.render, String.toList_ofList, Decimal.int64?_ofInt n.minValue_le_toInt n.toInt_le,
    Int64.ofInt_toInt, Option.map_some]

theorem writtenAs_bool (b : Bool) : (Scalar.bool b).WrittenAs (if b then "true" else "false") := by
  cases b <;> exact ⟨rfl, by decide⟩

theorem writtenAs_array {form : String} (h : ',' ∉ form.toList) : (Scalar.array [form]).WrittenAs form := by
  refine ⟨by simp [render, joinItems], ?_⟩
  rw [kind, ofText?, splitItems_of_comma_not_mem h]

end Scalar

namespace Accessor

/-- What the accessor gives for an entry in which that form is shown. -/
def reading (key form : String) : Accessor → Operation.Result
  | .readText => .ok (some (.text form))
  | .read (.scalar kind) =>
    match Scalar.ofText? kind form with
    | some content => .ok (some (.value (.scalar content)))
    | none => .error (.notConvertible key kind form)
  | _ => .ok none

/-- What the accessor reads from the form, if anything, is written in that form again. -/
def Preserves (form : String) : Accessor → Prop
  | .readText => True
  | .read (.scalar kind) => ∀ content, Scalar.ofText? kind form = some content → content.render = form
  | _ => False

end Accessor

/-! ## One access -/

namespace Handle

variable {store : Store} {handle : Handle} {within : Option String} {key form : String} {owner : SectionId}
  {kind : ScalarKind}

theorem lookup_of_shows (howner : handle.owner store within = .ok owner) (hplain : ¬ referenceMark <:+: form.toList)
    (h : store.Shows owner key form) :
    ∃ content, handle.lookup store within key = .ok (some (.scalar content)) ∧ content.WrittenAs form := by
  obtain ⟨content, hheld, hrender, hread⟩ := h
  refine ⟨content, ?_, hrender, hread⟩
  cases content with
  | text text =>
      obtain rfl : text = form := hrender
      rw [lookup_of_text howner hheld, Store.resolve_of_plain hplain]
      rfl
  | _ => exact lookup_of_kind_ne howner hheld fun htext => by cases htext

theorem readLeaving_of_shows (howner : handle.owner store within = .ok owner)
    (hplain : ¬ referenceMark <:+: form.toList) (h : store.Shows owner key form) {content : Scalar}
    (hcontent : Scalar.ofText? kind form = some content) (hrender : content.render = form) :
    (handle.readLeaving store (.scalar kind) within key).1 = .ok (some (.scalar content)) ∧
      (handle.readLeaving store (.scalar kind) within key).2.Shows owner key form := by
  obtain ⟨found, hlookup, hfound, hread⟩ := lookup_of_shows howner hplain h
  by_cases hkind : found.kind = kind
  · subst hkind
    obtain rfl : found = content := Option.some.inj (hread.symm.trans hcontent)
    simpa [readLeaving, hlookup, Value.kind] using h
  · obtain ⟨held, hheld, -⟩ := h
    have hconvert : (Value.scalar found).convert key (.scalar kind) = .ok (.scalar content) := by
      simp only [Value.convert, hfound, hcontent]
    have hleaves : handle.readLeaving store (.scalar kind) within key =
        (.ok (some (.scalar content)), store.insert owner key (.scalar content)) := by
      simp [readLeaving, hlookup, Value.kind, hkind, hconvert, putLeaving, howner, Except.map]
    rw [hleaves]
    refine ⟨rfl, content, ?_, hrender, ?_⟩
    · rw [Store.get?_insert (Store.lt_size_of_get? hheld), if_pos ⟨rfl, rfl⟩]
    · rw [Scalar.kind_of_ofText? hcontent, hcontent]

theorem readLeaving_of_not_convertible (howner : handle.owner store within = .ok owner)
    (hplain : ¬ referenceMark <:+: form.toList) (h : store.Shows owner key form)
    (hnone : Scalar.ofText? kind form = none) :
    handle.readLeaving store (.scalar kind) within key = (.error (.notConvertible key kind form), store) := by
  obtain ⟨found, hlookup, hfound, hread⟩ := lookup_of_shows howner hplain h
  have hkind : found.kind ≠ kind := by
    rintro rfl
    cases hread.symm.trans hnone
  have hconvert : (Value.scalar found).convert key (.scalar kind) = .error (.notConvertible key kind form) := by
    simp only [Value.convert, hfound, hnone]
  simp [readLeaving, hlookup, Value.kind, hkind, hconvert]

theorem owner_of_skeleton {after : Store} (h : ∀ id, after.skeleton id = store.skeleton id) (handle : Handle)
    (within : Option String) : handle.owner after within = handle.owner store within := by
  cases within with
  | none => rfl
  | some name =>
      have hchild (store : Store) :
          store.child? handle.scope name = ((store.skeleton handle.scope).get? name).bind id := by
        rw [Store.skeleton, Entries.get?_mapValues, Store.child?, Store.get?]
        cases (store.entries handle.scope).get? name <;> rfl
      rw [owner, owner, hchild after, hchild store, h]

end Handle

theorem Accessor.perform_of_shows {store : Store} {handle : Handle} {within : Option String} {key form : String}
    {owner : SectionId} {accessor : Accessor} (howner : handle.owner store within = .ok owner)
    (hplain : ¬ referenceMark <:+: form.toList) (h : store.Shows owner key form) (hpreserves : accessor.Preserves form) :
    (accessor.perform store handle within key).1 = accessor.reading key form ∧
      (accessor.perform store handle within key).2.Shows owner key form := by
  cases accessor with
  | readText =>
      have hform : Scalar.ofText? .text form = some (.text form) := rfl
      obtain ⟨hgiven, hleft⟩ := Handle.readLeaving_of_shows howner hplain h hform rfl
      refine ⟨?_, hleft⟩
      simp [perform, hgiven, reading, Except.map, Value.render, Scalar.render]
  | read target =>
      cases target with
      | nested role => exact hpreserves.elim
      | scalar kind =>
          cases hcontent : Scalar.ofText? kind form with
          | none =>
              simp [perform, Handle.readLeaving_of_not_convertible howner hplain h hcontent, reading, hcontent, Except.map, h]
          | some content =>
              obtain ⟨hgiven, hleft⟩ :=
                Handle.readLeaving_of_shows howner hplain h hcontent (hpreserves content hcontent)
              refine ⟨?_, hleft⟩
              simp [perform, hgiven, reading, hcontent, Except.map]
  | look => exact hpreserves.elim
  | readNested => exact hpreserves.elim
  | put value => exact hpreserves.elim

/-! ## Runs of accesses -/

namespace Operation

/-- The step goes to the entry under `key` in `owner`. -/
inductive Visits (store : Store) (owner : SectionId) (key : String) : Handle × Operation → Accessor → Prop where
  | intro {handle within accessor} : handle.owner store within = .ok owner →
      Visits store owner key (handle, .entry within key accessor) accessor

/-- The accesses of the entry in a run of reads give the answers that they have in `answer?`, wherever each has one. An
access whose answer is a failure changes nothing. -/
def Answered (store : Store) (owner : SectionId) (key : String) (answer? : Accessor → Option Result) : Prop :=
  ∀ steps, Each Reads store steps →
    (∀ step ∈ steps, ∀ accessor, Visits store owner key step accessor → (answer? accessor).isSome) →
    Each (fun now handle operation => ∀ accessor, Visits store owner key (handle, operation) accessor →
      answer? accessor = some (operation.perform now handle).1 ∧
        ∀ failure, answer? accessor = some (.error failure) → (operation.perform now handle).2 = now) store steps

variable {store now : Store} {handle : Handle} {operation : Operation} {step : Handle × Operation} {accessor : Accessor}
  {owner : SectionId} {key form : String} {answer? : Accessor → Option Result}

theorem Visits.of_skeleton (h : Visits store owner key step accessor) (hsame : ∀ id, now.skeleton id = store.skeleton id) :
    Visits now owner key step accessor := by
  cases h with
  | intro howner => exact .intro ((Handle.owner_of_skeleton hsame _ _).trans howner)

theorem perform_of_visits (hvisit : Visits now owner key (handle, operation) accessor) (h : now.Shows owner key form)
    (hplain : ¬ referenceMark <:+: form.toList) (hpreserves : accessor.Preserves form) :
    (operation.perform now handle).1 = accessor.reading key form ∧
      (operation.perform now handle).2.Shows owner key form := by
  cases hvisit with
  | intro howner => exact Accessor.perform_of_shows howner hplain h hpreserves

/-- A read of another entry leaves what the entry shows. -/
theorem shows_of_not_visits (h : now.Shows owner key form) (hreads : operation.Reads now handle)
    (hother : ∀ accessor, ¬ Visits now owner key (handle, operation) accessor) :
    (operation.perform now handle).2.Shows owner key form := by
  cases operation with
  | entry within name accessor =>
      obtain ⟨content, hheld, hcontent⟩ := h
      refine ⟨content, (accessor.get?_perform ?_).trans hheld, hcontent⟩
      rintro ⟨howner, rfl⟩
      exact hother accessor ⟨howner⟩
  | resolve text => exact h
  | project => exact h
  | override overrides vars => exact hreads.elim
  | merge text => exact hreads.elim

theorem answered_of_shows (h : store.Shows owner key form) (hplain : ¬ referenceMark <:+: form.toList)
    (hanswer : ∀ {accessor result}, answer? accessor = some result →
      accessor.Preserves form ∧ accessor.reading key form = result) : Answered store owner key answer? := by
  intro steps hreads hvisits
  -- What the run has changed by then is neither where an access goes nor the form that the entry shows.
  suffices hrun : ∀ now : Store, (∀ id, now.skeleton id = store.skeleton id) → now.Shows owner key form →
      Each Reads now steps → Each _ now steps from hrun store (fun _ => rfl) h hreads
  clear hreads
  induction steps with
  | nil => exact fun _ _ _ _ => trivial
  | cons step steps ih =>
      obtain ⟨handle, operation⟩ := step
      obtain ⟨hfirst, hlater⟩ := List.forall_mem_cons.mp hvisits
      intro now hskeleton hshows hreads
      have hnext : (operation.perform now handle).2.Shows owner key form := by
        by_cases hvisit : ∃ accessor, Visits now owner key (handle, operation) accessor
        · obtain ⟨accessor, hvisit⟩ := hvisit
          have hplace := hvisit.of_skeleton fun id => (hskeleton id).symm
          obtain ⟨result, hresult⟩ := Option.isSome_iff_exists.mp (hfirst accessor hplace)
          exact (perform_of_visits hvisit hshows hplain (hanswer hresult).1).2
        · exact shows_of_not_visits hshows hreads.1 fun accessor hother => hvisit ⟨accessor, hother⟩
      refine ⟨fun accessor hplace => ?_, ih hlater _ (fun id => ?_) hnext hreads.2⟩
      · obtain ⟨result, hresult⟩ := Option.isSome_iff_exists.mp (hfirst accessor hplace)
        obtain ⟨hpreserves, rfl⟩ := hanswer hresult
        have hgiven := (perform_of_visits (hplace.of_skeleton hskeleton) hshows hplain hpreserves).1
        refine ⟨hresult.trans (congrArg some hgiven.symm), fun failure hfails => perform_unchanged fun answer hdone => ?_⟩
        rw [hresult, ← hgiven, hdone] at hfails
        cases hfails
      · rw [skeleton_perform hreads.1, hskeleton]

end Operation

/-! ## Numbers and truth values -/

namespace Accessor

/-- What is read of a number, but for its truth. -/
def ofNumber? (key : String) (n : Int) : Accessor → Option Operation.Result
  | .readText => some (.ok (some (.text (Decimal.render n))))
  | .read (.scalar .int) =>
    if Int32.minValue.toInt ≤ n ∧ n ≤ Int32.maxValue.toInt then some (.ok (some (.value (.scalar (.int (.ofInt n))))))
    else some (.error (.notConvertible key .int (Decimal.render n)))
  | .read (.scalar .long) => some (.ok (some (.value (.scalar (.long (.ofInt n))))))
  | .read (.scalar .array) => some (.ok (some (.value (.scalar (.array [Decimal.render n])))))
  | _ => none

/-- What is read of a truth value, but for numbers. -/
def ofTruth? (b : Bool) : Accessor → Option Operation.Result
  | .readText => some (.ok (some (.text (if b then "true" else "false"))))
  | .read (.scalar .bool) => some (.ok (some (.value (.scalar (.bool b)))))
  | .read (.scalar .array) => some (.ok (some (.value (.scalar (.array [if b then "true" else "false"])))))
  | _ => none

variable {key form : String} {accessor : Accessor} {result : Operation.Result} {content : Scalar}

theorem reading_of_writtenAs (h : content.WrittenAs form) :
    (Accessor.read (.scalar content.kind)).Preserves form ∧
      (Accessor.read (.scalar content.kind)).reading key form = .ok (some (.value (.scalar content))) := by
  obtain ⟨hrender, hread⟩ := h
  refine ⟨fun other hother => ?_, by rw [reading, hread]⟩
  rwa [← Option.some.inj (hread.symm.trans hother)]

theorem reading_of_ofNumber? {n : Int} (hlong : Int64.minValue.toInt ≤ n ∧ n ≤ Int64.maxValue.toInt)
    (h : accessor.ofNumber? key n = some result) :
    accessor.Preserves (Decimal.render n) ∧ accessor.reading key (Decimal.render n) = result := by
  unfold ofNumber? at h
  split at h
  · cases h
    exact ⟨trivial, rfl⟩
  · by_cases hint : Int32.minValue.toInt ≤ n ∧ n ≤ Int32.maxValue.toInt
    · rw [if_pos hint] at h
      cases h
      have hform := Scalar.writtenAs_int (.ofInt n)
      rw [Int32.toInt_ofInt_of_le hint.1 (Int.lt_add_one_of_le hint.2)] at hform
      exact reading_of_writtenAs hform
    · rw [if_neg hint] at h
      cases h
      have hnone : Scalar.ofText? .int (Decimal.render n) = none := by
        rw [Scalar.ofText?, Decimal.int32?_render, if_neg hint, Option.map_none]
      refine ⟨fun content hcontent => ?_, by rw [reading, hnone]⟩
      cases hnone.symm.trans hcontent
  · cases h
    have hform := Scalar.writtenAs_long (.ofInt n)
    rw [Int64.toInt_ofInt_of_le hlong.1 (Int.lt_add_one_of_le hlong.2)] at hform
    exact reading_of_writtenAs hform
  · cases h
    refine reading_of_writtenAs (Scalar.writtenAs_array fun hcomma => ?_)
    rcases Decimal.mem_render hcomma with hc | hc <;> exact absurd hc (by decide)
  · cases h

theorem reading_of_ofTruth? {b : Bool} (h : accessor.ofTruth? b = some result) :
    accessor.Preserves (if b then "true" else "false") ∧ accessor.reading key (if b then "true" else "false") = result := by
  unfold ofTruth? at h
  split at h
  · cases h
    exact ⟨trivial, rfl⟩
  · cases h
    exact reading_of_writtenAs (Scalar.writtenAs_bool b)
  · cases h
    refine reading_of_writtenAs (Scalar.writtenAs_array ?_)
    cases b <;> decide
  · cases h

end Accessor

namespace Handle

variable {store after : Store} {handle : Handle} {within : Option String} {key form : String} {content : Scalar}

/-- What a read that is not as a text has given is what the entry holds. -/
theorem shows_of_read (hne : content.kind ≠ .text) (hform : content.WrittenAs form)
    (h : handle.read store (.scalar content.kind) within key = .ok (some (.scalar content), after)) :
    ∃ owner, handle.owner store within = .ok owner ∧ handle.owner after within = .ok owner ∧
      after.Shows owner key form := by
  obtain ⟨owner, found, howner, hfinds, ⟨_, rfl, rfl⟩ | ⟨_, hconvert, rfl⟩⟩ := read_eq_ok_some_iff.mp h
  · refine ⟨owner, howner, howner, content, ?_, hform⟩
    cases hfinds with
    | resolved _ _ => exact absurd rfl hne
    | held hvalue _ => exact hvalue
  · obtain ⟨hagain, hheld⟩ := get?_of_convert howner hfinds hconvert
    exact ⟨owner, howner, hagain, content, hheld, hform⟩

theorem answered_of_read {answer? : Accessor → Option Operation.Result} (htext : content.kind ≠ .text)
    (harray : content.kind ≠ .array) (hform : content.WrittenAs form)
    (hanswer : ∀ {accessor result}, answer? accessor = some result →
      accessor.Preserves form ∧ accessor.reading key form = result)
    (h : handle.read store (.scalar content.kind) within key = .ok (some (.scalar content), after)) :
    ∃ owner, handle.owner store within = .ok owner ∧ handle.owner after within = .ok owner ∧
      Operation.Answered after owner key answer? := by
  obtain ⟨owner, howner, hagain, hshows⟩ := shows_of_read htext hform h
  exact ⟨owner, howner, hagain, Operation.answered_of_shows hshows (hform.1 ▸ Scalar.plain_render htext harray) hanswer⟩

/-- An entry that was read as a number is read as that number from then on, as its decimal form, and as the list of
that form, and as a 32-bit number unless it does not fit; one that was read as a truth value is read as that, as its word,
and as the list of its word. -/
theorem answered_after_read (store after : Store) (handle : Handle) (within : Option String) (key : String) :
    (∀ n, handle.read store (.scalar .int) within key = .ok (some (.scalar (.int n)), after) →
      ∃ owner, handle.owner store within = .ok owner ∧ handle.owner after within = .ok owner ∧
        Operation.Answered after owner key (Accessor.ofNumber? key n.toInt)) ∧
    (∀ n, handle.read store (.scalar .long) within key = .ok (some (.scalar (.long n)), after) →
      ∃ owner, handle.owner store within = .ok owner ∧ handle.owner after within = .ok owner ∧
        Operation.Answered after owner key (Accessor.ofNumber? key n.toInt)) ∧
    ∀ b, handle.read store (.scalar .bool) within key = .ok (some (.scalar (.bool b)), after) →
      ∃ owner, handle.owner store within = .ok owner ∧ handle.owner after within = .ok owner ∧
        Operation.Answered after owner key (Accessor.ofTruth? b) := by
  refine ⟨fun n h => ?int, fun n h => ?long, fun b h => ?bool⟩
  case int =>
    have hlong : Int64.minValue.toInt ≤ n.toInt ∧ n.toInt ≤ Int64.maxValue.toInt :=
      ⟨Int.le_trans (by decide) n.minValue_le_toInt, Int.le_trans n.toInt_le (by decide)⟩
    exact answered_of_read (by nofun) (by nofun) (Scalar.writtenAs_int n) (Accessor.reading_of_ofNumber? hlong) h
  case long =>
    have hlong := And.intro n.minValue_le_toInt n.toInt_le
    exact answered_of_read (by nofun) (by nofun) (Scalar.writtenAs_long n) (Accessor.reading_of_ofNumber? hlong) h
  case bool => exact answered_of_read (by nofun) (by nofun) (Scalar.writtenAs_bool b) Accessor.reading_of_ofTruth? h

/-- A section with a number, a number of more than 32 bits, and a truth value, and the root that it stands in. -/
def mixedStore (n big flag : Value) : Store :=
  ⟨#[[("n", n), ("d", .text "0"), ("big", big), ("flag", flag)], [("s", .nested .plain 0)]]⟩

theorem answered_mixedStore :
    let root := ofRoot 1
    let before := mixedStore (.text "8$\x7bd\x7d") (.text "4294967296") (.text "TRUE")
    let after := mixedStore (.scalar (.int 80)) (.text "4294967296") (.text "TRUE")
    let asText : Operation := .entry (some "s") "n" .readText
    let asList : Operation := .entry (some "s") "n" (.read (.scalar .array))
    root.read before (.scalar .int) (some "s") "n" = .ok (some (.scalar (.int 80)), after) ∧
      (asList.perform (asText.perform after root).2 root).1 = .ok (some (.value (.scalar (.array ["80"])))) ∧
      Operation.Answered (mixedStore (.text "8$\x7bd\x7d") (.scalar (.long 4294967296)) (.text "TRUE")) 0 "big"
        (Accessor.ofNumber? "big" 4294967296) ∧
      Operation.Answered (mixedStore (.text "8$\x7bd\x7d") (.text "4294967296") (.scalar (.bool true))) 0 "flag"
        (Accessor.ofTruth? true) := by
  intro root before after asText asList
  have hint : root.read before (.scalar .int) (some "s") "n" = .ok (some (.scalar (.int 80)), after) := by cbv
  have hlong : root.read before (.scalar .long) (some "s") "big" = .ok (some (.scalar (.long 4294967296)),
      mixedStore (.text "8$\x7bd\x7d") (.scalar (.long 4294967296)) (.text "TRUE")) := by cbv
  have hbool : root.read before (.scalar .bool) (some "s") "flag" = .ok (some (.scalar (.bool true)),
      mixedStore (.text "8$\x7bd\x7d") (.text "4294967296") (.scalar (.bool true))) := by cbv
  have hplace : root.owner before (some "s") = .ok 0 := by cbv
  obtain ⟨_, howner, hagain, hnumber⟩ := (answered_after_read before after root (some "s") "n").1 80 hint
  cases hplace.symm.trans howner
  obtain ⟨_, howner, _, hbig⟩ := (answered_after_read before _ root (some "s") "big").2.1 4294967296 hlong
  cases hplace.symm.trans howner
  obtain ⟨_, howner, _, htruth⟩ := (answered_after_read before _ root (some "s") "flag").2.2 true hbool
  cases hplace.symm.trans howner
  refine ⟨hint, ?_, hbig, htruth⟩
  have hrun := hnumber [(root, asText), (root, asList)] ⟨trivial, trivial, trivial⟩ ?_
  · exact (Option.some.inj (hrun.2.1 _ ⟨hagain⟩).1).symm
  · intro step hstep accessor hvisit
    rcases List.mem_pair.mp hstep with rfl | rfl
    · change Operation.Visits after 0 "n" (root, .entry (some "s") "n" .readText) accessor at hvisit
      cases hvisit
      rfl
    · change Operation.Visits after 0 "n" (root, .entry (some "s") "n" (.read (.scalar .array))) accessor at hvisit
      cases hvisit
      rfl

end Handle

end LayeredConfig
