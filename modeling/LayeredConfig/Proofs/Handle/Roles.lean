import LayeredConfig.Proofs.Handle.Descent
import LayeredConfig.Proofs.Handle.Operation

/-!
# Operations do not see roles

No operation tells apart two stores that differ in the roles of sections only: what it gives differs in roles at most,
and so does what it leaves. So a section that was handed out is as good as one that was not, and the handle on it as good
as its name.
-/

namespace LayeredConfig

/-! ## Without roles -/

def Kind.bare : Kind → Kind
  | .scalar kind => .scalar kind
  | .nested _ => .nested .plain

/-- The failure as if what was found had not been handed out. -/
def Failure.bare : Failure → Failure
  | .incompatibleValue key expected found => .incompatibleValue key expected found.bare
  | failure => failure

def Answer.bare : Answer → Answer
  | .value found => .value found.bare
  | answer => answer

def Accessor.bare : Accessor → Accessor
  | .put value => .put value.bare
  | accessor => accessor

def Operation.bare : Operation → Operation
  | .entry within key accessor => .entry within key accessor.bare
  | operation => operation

section

variable {α β : Type}

def bareResult (bare : α → α) : Except Failure α → Except Failure α
  | .error failure => .error failure.bare
  | .ok value => .ok (bare value)

/-- What was given and what was left, without roles. -/
def bareOutcome (bare : α → α) (outcome : Except Failure α × Store) : Except Failure α × Store :=
  (bareResult bare outcome.1, outcome.2.bare)

theorem bareOutcome_map {bare : α → α} {bare' : β → β} {g : α → β} (hg : ∀ value, bare' (g value) = g (bare value))
    (outcome : Except Failure α × Store) :
    bareOutcome bare' (outcome.1.map g, outcome.2) =
      ((bareOutcome bare outcome).1.map g, (bareOutcome bare outcome).2) := by
  obtain ⟨_ | value, store⟩ := outcome
  · rfl
  · exact congrArg (Except.ok · , store.bare) (hg value)

end

/-! ## Accesses -/

namespace Handle

variable (store : Store) (handle : Handle) (within : Option String) (key : String)

theorem owner_bare : handle.owner store.bare within = handle.owner store within := by
  have howner := Store.carries_bare.owner store handle within
  change handle.owner store.bare within = _ at howner
  rw [howner]
  cases handle.owner store within <;> rfl

theorem lookup_bare :
    handle.lookup store.bare within key = (handle.lookup store within key).map (Option.map Value.bare) :=
  Store.carries_bare.lookup store key handle within

theorem putLeaving_bare (value : Value) :
    handle.putLeaving store.bare within key value.bare =
      ((handle.putLeaving store within key value).1, (handle.putLeaving store within key value).2.bare) := by
  rw [putLeaving, putLeaving, owner_bare]
  cases handle.owner store within with
  | error failure => rfl
  | ok owner => exact congrArg (Prod.mk _) (store.bare_insert owner key value).symm

variable {store handle within key}

/-- Whichever role a section has and is read in, the read gives the section and leaves its roles at most changed. -/
theorem readLeaving_nested {role target : Role} {id : SectionId}
    (h : handle.lookup store within key = .ok (some (.nested role id))) :
    bareOutcome (Option.map Value.bare) (handle.readLeaving store (.nested target) within key) =
      (.ok (some (.nested .plain id)), store.bare) := by
  rw [readLeaving, h]
  by_cases hrole : role = target
  · subst hrole
    simp [Value.kind, bareOutcome, bareResult, Value.bare]
  · obtain ⟨owner, howner, hfinds⟩ := lookup_eq_ok_some_iff.mp h
    cases hfinds with
    | held hvalue _ =>
        have hstore : (store.insert owner key (.nested target id)).bare = store.bare :=
          Store.bare_insert_of_get? hvalue rfl
        simp [Value.kind, hrole, Value.convert, putLeaving, howner, bareOutcome, bareResult, Value.bare, hstore,
          Except.map]

variable (store handle within key)

theorem readLeaving_bare (target : Kind) :
    bareOutcome (Option.map Value.bare) (handle.readLeaving store.bare target within key) =
      bareOutcome (Option.map Value.bare) (handle.readLeaving store target within key) := by
  have hlookup := handle.lookup_bare store within key
  rcases hfound : handle.lookup store within key with failure | _ | content | ⟨role, id⟩
  · rw [readLeaving, readLeaving, hlookup, hfound]
    simp [bareOutcome, Except.map]
  · rw [readLeaving, readLeaving, hlookup, hfound]
    simp [bareOutcome, Except.map]
  · -- A scalar is converted alike, and to a scalar, in which there is no role.
    rw [readLeaving, readLeaving, hlookup, hfound]
    simp only [Except.map, Option.map_some, Value.bare]
    split
    · simp [bareOutcome]
    · cases hconvert : (Value.scalar content).convert key target with
      | error failure => simp [bareOutcome]
      | ok converted =>
          have hsection : converted.section? = none := Value.section?_of_convert hconvert
          cases converted with
          | nested role id => cases hsection
          | scalar converted =>
              have hput := handle.putLeaving_bare store within key (.scalar converted)
              rw [Value.bare] at hput
              simp [hput, bareOutcome]
  · rw [hfound] at hlookup
    cases target with
    | nested target => rw [readLeaving_nested hlookup, readLeaving_nested hfound, Store.bare_bare]
    | scalar target =>
        rw [readLeaving, readLeaving, hlookup, hfound]
        simp [Except.map, Value.bare, Value.kind, Value.convert, bareOutcome, bareResult, Failure.bare, Kind.bare]

end Handle

/-! ## Operations -/

/-- Of the answers of an operation, only a value can have a role in it. -/
abbrev Operation.Result.bare : Operation.Result → Operation.Result := bareResult (Option.map Answer.bare)

namespace Accessor

variable {store : Store} {handle : Handle} {within : Option String} {key : String}

theorem perform_bare (store : Store) (handle : Handle) (within : Option String) (key : String) (accessor : Accessor) :
    bareOutcome (Option.map Answer.bare) (accessor.bare.perform store.bare handle within key) =
      bareOutcome (Option.map Answer.bare) (accessor.perform store handle within key) := by
  cases accessor with
  | look =>
      simp only [bare, perform, handle.lookup_bare store within key]
      rcases handle.lookup store within key with failure | _ | value <;>
        simp [bareOutcome, bareResult, Except.map, Answer.bare]
  | read target =>
      have hg (value? : Option Value) : (value?.map Answer.value).map Answer.bare = (value?.map Value.bare).map .value := by
        cases value? <;> rfl
      have hread := handle.readLeaving_bare store within key target
      simp only [bare, perform]
      rw [bareOutcome_map hg, hread, ← bareOutcome_map hg]
  | readText =>
      have hg (value? : Option Value) : ((value?.bind Value.render).map Answer.text).map Answer.bare =
          ((value?.map Value.bare).bind Value.render).map .text := by
        rcases value? with _ | _ | _ <;> rfl
      have hread := handle.readLeaving_bare store within key (.scalar .text)
      simp only [bare, perform]
      rw [bareOutcome_map hg, hread, ← bareOutcome_map hg]
  | readNested =>
      have hg (value? : Option Value) :
          ((value?.bind Value.section?).map fun id => Answer.handle { handle with scope := id }).map Answer.bare =
            ((value?.map Value.bare).bind Value.section?).map fun id => .handle { handle with scope := id } := by
        rcases value? with _ | _ | _ <;> rfl
      have hread := handle.readLeaving_bare store within key (.nested .handedOut)
      simp only [bare, perform]
      rw [bareOutcome_map hg, hread, ← bareOutcome_map hg]
  | put value =>
      simp only [bare, perform, handle.putLeaving_bare]
      simp [bareOutcome]

/-- An access depends on the handle by the section that it goes to and by the root. -/
theorem perform_congr {other : Handle} {within' : Option String} (howner : handle.owner store within = other.owner store within')
    (hroot : handle.root = other.root) (accessor : Accessor) :
    accessor.perform store handle within key = accessor.perform store other within' key := by
  have hlookup : handle.lookup store within key = other.lookup store within' key := by
    rw [Handle.lookup, Handle.lookup, howner, hroot]
  have hput (value : Value) : handle.putLeaving store within key value = other.putLeaving store within' key value := by
    rw [Handle.putLeaving, Handle.putLeaving, howner]
  have hread (target : Kind) : handle.readLeaving store target within key = other.readLeaving store target within' key := by
    simp only [Handle.readLeaving, hlookup, hput]
  cases accessor with
  | look => simp only [perform, hlookup]
  | read target => simp only [perform, hread]
  | readText => simp only [perform, hread]
  | readNested => simp only [perform, hread, hroot]
  | put value => simp only [perform, hput]

end Accessor

namespace Operation

theorem perform_bare (store : Store) (handle : Handle) (operation : Operation) :
    bareOutcome (Option.map Answer.bare) (operation.bare.perform store.bare handle) =
      bareOutcome (Option.map Answer.bare) (operation.perform store handle) := by
  cases operation with
  | entry within key accessor => exact accessor.perform_bare store handle within key
  | resolve text => simp [bare, perform, Store.resolve_bare, bareOutcome]
  | project => simp [bare, perform, handle.projection_of_bare store.bare_bare, bareOutcome]
  | override overrides vars =>
      have happly := Store.carries_bare.apply store handle.scope overrides vars
      simp only [bare, perform, happly, bareOutcome, Store.bare_bare]
  | merge text =>
      have hmerge := Store.carries_bare.merge store handle.scope (Document.ofText text)
      simp only [bare, perform, hmerge, bareOutcome, Store.bare_bare]

/-! ## Stores that differ in roles only -/

/-- Both results and both stores that were left are the same but for roles. -/
def AlikeOutcome (mine yours : Result × Store) : Prop := mine.1.bare = yours.1.bare ∧ mine.2.bare = yours.2.bare

/-- Both are the same operation but for roles, through one handle. -/
def AlikeStep (mine yours : Handle × Operation) : Prop := mine.1 = yours.1 ∧ mine.2.bare = yours.2.bare

variable {left right : Store}

theorem perform_alike (h : left.bare = right.bare) (handle : Handle) {mine yours : Operation}
    (hsame : mine.bare = yours.bare) : AlikeOutcome (mine.perform left handle) (yours.perform right handle) := by
  have hmine := mine.perform_bare left handle
  have hyours := yours.perform_bare right handle
  rw [h, hsame, hyours] at hmine
  exact ⟨congrArg Prod.fst hmine.symm, congrArg Prod.snd hmine.symm⟩

theorem run_alike (h : left.bare = right.bare) {mine yours : List (Handle × Operation)}
    (hsame : List.Forall₂ AlikeStep mine yours) :
    (run left mine).1.map Result.bare = (run right yours).1.map Result.bare ∧
      (run left mine).2.bare = (run right yours).2.bare := by
  induction hsame generalizing left right with
  | nil => exact ⟨rfl, h⟩
  | @cons step other _ _ hstep _ ih =>
      obtain ⟨handle, mine⟩ := step
      obtain ⟨_, yours⟩ := other
      obtain ⟨rfl, hbare⟩ := hstep
      obtain ⟨hresult, hafter⟩ := perform_alike h handle hbare
      obtain ⟨hresults, hlast⟩ := ih hafter
      exact ⟨congrArg₂ List.cons hresult hresults, hlast⟩

/-- A section is handed out, and then an access through the handle on it is the same as one that names the section. -/
theorem perform_handedOut (h : left.bare = right.bare) {handle : Handle} {name : String} {id : SectionId}
    (hchild : left.child? handle.scope name = some id) :
    ∃ nested after, handle.readNested right none name = .ok (some nested, after) ∧
      ∀ key (mine yours : Accessor), mine.bare = yours.bare →
        AlikeOutcome ((entry (some name) key mine).perform left handle) ((entry none key yours).perform after nested) := by
  rw [← Store.child?_bare, h, Store.child?_bare] at hchild
  obtain ⟨value, hvalue, hsection⟩ := Option.bind_eq_some_iff.mp hchild
  cases value with
  | scalar content => cases hsection
  | nested role child =>
      cases hsection
      obtain ⟨after, hread, hafter⟩ := Handle.readNested_of_get? hvalue
      refine ⟨_, after, hread, fun key mine yours hsame => ?_⟩
      have hentry : (entry (some name) key mine).bare = (entry (some name) key yours).bare := congrArg (entry _ key) hsame
      have halike := perform_alike (h.trans hafter.symm) handle hentry
      rw [← Store.child?_bare, ← hafter, Store.child?_bare] at hchild
      have howner : handle.owner after (some name) = { handle with scope := id : Handle }.owner after none :=
        Handle.owner_eq_ok_iff.mpr hchild
      have hnested : (entry (some name) key yours).perform after handle = (entry none key yours).perform after _ :=
        Accessor.perform_congr howner rfl yours
      rwa [hnested] at halike

/-- Stores that differ in roles only are told apart by no operation and by no run of operations. An access to a section
by its name is the same as one through the handle that is handed out for it. -/
theorem alike_of_bare_eq (h : left.bare = right.bare) :
    (∀ handle (mine yours : Operation), mine.bare = yours.bare →
      AlikeOutcome (mine.perform left handle) (yours.perform right handle)) ∧
    (∀ mine yours, List.Forall₂ AlikeStep mine yours →
      (run left mine).1.map Result.bare = (run right yours).1.map Result.bare ∧
        (run left mine).2.bare = (run right yours).2.bare) ∧
    ∀ (handle : Handle) name id, left.child? handle.scope name = some id →
      ∃ nested after, handle.readNested right none name = .ok (some nested, after) ∧
        ∀ key (mine yours : Accessor), mine.bare = yours.bare →
          AlikeOutcome ((entry (some name) key mine).perform left handle) ((entry none key yours).perform after nested) :=
  ⟨fun handle _ _ => perform_alike h handle, fun _ _ => run_alike h, fun _ _ _ => perform_handedOut h⟩

/-- A root with a section in it, as it was read or handed out. -/
def serverStore (role : Role) : Store := ⟨#[[("host", .text "a")], [("server", .nested role 0)]]⟩

/-- The role shows in what a failed read tells of the kind that it found, and in nothing else. -/
theorem alike_serverStore :
    let readInt := entry none "server" (.read (.scalar .int))
    (serverStore .plain).bare = (serverStore .handedOut).bare ∧
      (∀ role, (readInt.perform (serverStore role) (.ofRoot 1)).1 =
        .error (.incompatibleValue "server" (.scalar .int) (.nested role))) ∧
      AlikeOutcome (readInt.perform (serverStore .plain) (.ofRoot 1))
        (readInt.perform (serverStore .handedOut) (.ofRoot 1)) ∧
      ∃ nested after, (Handle.ofRoot 1).readNested (serverStore .handedOut) none "server" = .ok (some nested, after) ∧
        AlikeOutcome ((entry (some "server") "host" .readText).perform (serverStore .plain) (.ofRoot 1))
          ((entry none "host" .readText).perform after nested) := by
  intro readInt
  have hsame : (serverStore .plain).bare = (serverStore .handedOut).bare := by cbv
  have halike := alike_of_bare_eq hsame
  obtain ⟨nested, after, hnested, haccess⟩ := halike.2.2 (.ofRoot 1) "server" 0 (by cbv)
  refine ⟨hsame, fun role => by cbv, halike.1 _ _ _ rfl, nested, after, hnested, haccess _ _ _ rfl⟩

end Operation

end LayeredConfig
