import LayeredConfig.Proofs.Handle.Likeness
import LayeredConfig.Proofs.Handle.Repeated
import LayeredConfig.Proofs.Reference.Failures
import LayeredConfig.Proofs.Reference.Persistence

/-!
# References as reads

A reference to a key of a top-level section gives what reading that key as a text gives. The two find the entry in
ways of their own, and what is referred to has one level of nesting less than what is read.
-/

namespace LayeredConfig

open Text

/-- A text that is nothing but a reference. -/
def reference (name : String) : String := "$\x7b" ++ name ++ "\x7d"

/-- What a reference comes to where reading its target as a text gives `read`. -/
def Mirrors (name : String) (read : Except Failure (Option String)) (resolved : Except Failure String) : Prop :=
  match read with
  | .ok (some text) => resolved = .ok text ∨ EndsCircular resolved
  | .ok none | .error (.sectionNotFound _) => resolved = .error (.missingReference name)
  | .error (.incompatibleValue ..) => resolved = .error (.nonScalarReference name)
  | .error failure => resolved = .error failure ∨ EndsCircular resolved

theorem Mirrors.of_persists {name : String} {resolved read : Except Failure String} (h : Persists resolved read)
    (hfails : ∀ failure, read = .error failure → failure.OfReference) : Mirrors name (read.map some) resolved := by
  cases read with
  | ok text => exact h.symm.imp_left Eq.symm
  | error failure =>
      have hreference := hfails failure rfl
      cases failure with
      | sectionNotFound => exact hreference.elim
      | incompatibleValue => exact hreference.elim
      | _ => exact h.symm.imp_left Eq.symm

namespace Store

variable {store : Store} {root scope : SectionId}

theorem resolveTo_reference {name : String} (hname : '\x7d' ∉ name.toList) (limit : Nat) :
    store.resolveTo root (limit + 1) scope (reference name) = store.valueOf root limit scope name.toList := by
  have htemplate : Template.ofText (reference name).toList = .reference [] name.toList (.plain []) := by
    have hempty : Template.ofText [] = .plain [] := Template.ofText_of_plain (by decide)
    rw [← hempty, ← Template.ofText_of_reference (by decide) hname []]
    simp [reference, referenceMark]
  rw [resolveTo_succ, htemplate, Template.expand]
  cases store.valueOf root limit scope name.toList with
  | error failure => rfl
  | ok value => simp [Template.expand, bind, Except.bind, pure, Except.pure]

theorem target_topLevel {name key : String} (hempty : name ≠ "") (hname : '.' ∉ name.toList) (hkey : '.' ∉ key.toList) :
    store.target root scope (name ++ "." ++ key).toList =
      match store.child? root name with
      | some owner => .ok (owner, key)
      | none => .error (.missingReference (name ++ "." ++ key)) := by
  have hlist : (name ++ "." ++ key).toList = name.toList ++ '.' :: key.toList := by simp
  have htarget : Target.ofName (name ++ "." ++ key).toList = .topLevel name key := by
    obtain ⟨c, rest, hcons⟩ := List.exists_cons_of_ne_nil (mt String.toList_eq_nil_iff.mp hempty)
    rw [Target.ofName, hlist, cutAtChar_append hname, hcons]
    simp only [if_neg hkey]
    rw [← hcons, String.ofList_toList, String.ofList_toList]
  cases hchild : store.child? root name <;> simp only [target, htarget, hchild, String.ofList_toList]

end Store

namespace Handle

variable {store : Store} {root scope owner : SectionId} {within : Option String} {key name : String}

/-- Without a list in the entry, what it is read as mirrors what a reference to it comes to. -/
theorem mirrors_valueAt (howner : (ofRoot root).owner store within = .ok owner)
    (hlist : ∀ items, store.get? owner key ≠ some (.scalar (.array items))) :
    Mirrors name (((ofRoot root).readText store within key).map Prod.fst)
      (store.valueAt root (Store.nestingLimit - 1) name.toList (owner, key)) := by
  rw [Store.valueAt, String.ofList_toList]
  cases hvalue : store.get? owner key with
  | none =>
      rw [readText_eq_asText, lookup_of_none howner hvalue]
      rfl
  | some value =>
      cases value with
      | nested role id =>
          rw [readText_of_kind_ne howner hvalue (by simp [Value.kind])]
          rfl
      | scalar content =>
          by_cases htext : (Value.scalar content).kind = .scalar .text
          · obtain ⟨raw, hraw⟩ := Value.eq_text_of_kind htext
            rw [hraw] at hvalue ⊢
            rw [readText_of_text howner hvalue]
            have hlimit : Store.nestingLimit - 1 ≤ Store.nestingLimit := Nat.sub_le _ _
            -- The handle resolves the text one level less deep than the reference does.
            exact .of_persists (Store.resolveTo_persists hlimit owner raw) fun _ => Store.ofReference_of_resolve
          · rw [readText_of_kind_ne howner hvalue htext]
            have harray : content.kind ≠ .array := fun hkind => by
              obtain ⟨items, rfl⟩ := Scalar.eq_array_of_kind hkind
              exact hlist items hvalue
            have hplain := Scalar.plain_render (fun hkind => htext (congrArg Kind.scalar hkind)) harray
            have hresolve : store.resolveTo root _ owner (String.ofList content.render.toList) = _ :=
              Store.resolveTo_of_plain hplain (Store.nestingLimit - 1)
            rw [String.ofList_toList] at hresolve
            exact .inl hresolve

end Handle

/-- A reference to a key of a top-level section, wherever it stands, comes to what that key is read as. -/
theorem Handle.mirrors_readText (store : Store) (root scope : SectionId) (name key : String) (hempty : name ≠ "")
    (hname : '.' ∉ name.toList ∧ '\x7d' ∉ name.toList) (hkey : '.' ∉ key.toList ∧ '\x7d' ∉ key.toList)
    (hlist : ∀ owner items, store.child? root name = some owner →
      store.get? owner key ≠ some (.scalar (.array items))) :
    Mirrors (name ++ "." ++ key) (((ofRoot root).readText store (some name) key).map Prod.fst)
      (store.resolve root scope (reference (name ++ "." ++ key))) := by
  have hclosed : '\x7d' ∉ (name ++ "." ++ key).toList := by simp [hname.2, hkey.2]
  have hresolve : store.resolve root scope (reference (name ++ "." ++ key)) =
      store.target root scope (name ++ "." ++ key).toList >>=
        store.valueAt root (Store.nestingLimit - 1) (name ++ "." ++ key).toList :=
    (Store.resolveTo_reference hclosed _).trans (Store.valueOf_eq _ _ _)
  rw [hresolve, Store.target_topLevel hempty hname.1 hkey.1]
  cases hchild : store.child? root name with
  | none =>
      have howner : (ofRoot root).owner store (some name) = .error (.sectionNotFound name) := owner_of_child?_eq_none hchild
      rw [readText_eq_asText, lookup_of_owner_error howner]
      rfl
  | some owner => exact mirrors_valueAt (owner_eq_ok_iff.mpr hchild) (hlist owner · hchild)

/-- A store with a section whose entries are a text with a reference, a number and a section. -/
def mirroredStore : Store :=
  ⟨#[[], [("host", .text "$\x7bport\x7d.local"), ("port", .scalar (.int 80)), ("nested", .nested .plain 0)],
    [("server", .nested .plain 1)]]⟩

theorem Handle.mirrors_server_host :
    Mirrors "server.host" (((ofRoot 2).readText mirroredStore (some "server") "host").map Prod.fst)
      (mirroredStore.resolve 2 0 "$\x7bserver.host\x7d") ∧
    mirroredStore.resolve 2 0 "$\x7bserver.host\x7d" = .ok "80.local" := by
  refine ⟨mirrors_readText mirroredStore 2 0 "server" "host" (by decide) (by decide) (by decide) ?_, by cbv⟩
  intro owner items hchild hlist
  cases hchild
  have hhost : mirroredStore.get? 1 "host" = some (.text "$\x7bport\x7d.local") := by decide
  cases hhost.symm.trans hlist

end LayeredConfig
