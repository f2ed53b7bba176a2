import TemplateExpr.Proofs.Expr.Names

/-!
# Locals in front of a scope

Locals in front of an object act as one object, which holds the entries of both. Only where a local
that is no function is called does the call go past it, to the object behind.

* `Heap.Merges`               an object with the entries of another, overridden by locals;
* `Names.merged`              the names of such an object, with calls that pass over locals;
* `Expr.evaluateWith_merged`  evaluating with locals is evaluating in the merged object, and writes
                              go to the object behind.
-/

namespace TemplateExpr

variable {W : Type}

/-- An object holds the entries of the locals, and those of the base for all other names. A local
that holds null counts. -/
def Heap.Merges (h : Heap) (base locals merged : Nat) : Prop :=
  ∀ name, (h.fields merged).get? name =
    ((h.fields locals).get? name).or ((h.fields base).get? name)

/-- A call passes over a local that is no function. -/
def Fields.hasUncallable (locals : Fields Value) (name : String) : Bool :=
  match locals.get? name with
  | none | some (.function _) => false
  | some _ => true

/-- The names of a merged object. A call that passes over a local is a call of the base. -/
def Names.merged (env : Embedding W) (locals : Fields Value) (base merged : Nat) : Names W where
  get := (Value.object merged).get env
  call name args :=
    if locals.hasUncallable name then (Value.object base).callMethod env name args
    else (Value.object merged).callMethod env name args

/-! ## names of an overlay -/

namespace Value

variable (env : Embedding W) (id base locals merged : Nat) (name : String)

theorem lookup_object (ref : Nat) (s : Store W) :
    (object ref).lookup env name s = .ok ((s.heap.fields ref).get? name) s := rfl

theorem get_object (ref : Nat) (s : Store W) :
    (object ref).get env name s = .ok (((s.heap.fields ref).get? name).getD null) s := rfl

theorem callMethod_object (ref : Nat) (args : List Value) (s : Store W) :
    (object ref).callMethod env name args s =
      env.callValue? ((s.heap.fields ref).get? name) args s := rfl

theorem lookup_overlay (s : Store W) :
    (overlay id (object base) (object locals)).lookup env name s =
      .ok (((s.heap.fields locals).get? name).or ((s.heap.fields base).get? name)) s := by
  rw [lookup, bind_apply, lookup_object]
  dsimp only
  cases (s.heap.fields locals).get? name with
  | some v => rfl
  | none => rfl

theorem callMethod_overlay (args : List Value) (s : Store W) :
    (overlay id (object base) (object locals)).callMethod env name args s =
      match (s.heap.fields locals).get? name with
      | some (function f) => (some <$> env.call f args) s
      | _ => (object base).callMethod env name args s := by
  conv_lhs => rw [callMethod, bind_apply, lookup_object]
  dsimp only
  cases (s.heap.fields locals).get? name with
  | none => rfl
  | some v => cases v <;> rfl

variable {base locals merged}

theorem get_overlay {s : Store W} (merges : s.heap.Merges base locals merged) :
    (overlay id (object base) (object locals)).get env name s =
      (object merged).get env name s := by
  rw [get_object, merges name, get, bind_apply, lookup_overlay]
  rfl

/-- A call of an overlay passes over a local that is no function. -/
theorem callMethod_overlay_merged {s : Store W} (merges : s.heap.Merges base locals merged)
    (args : List Value) :
    (overlay id (object base) (object locals)).callMethod env name args s =
      (Names.merged env (s.heap.fields locals) base merged).call name args s := by
  have hcall : (Names.merged env (s.heap.fields locals) base merged).call name args =
      if (s.heap.fields locals).hasUncallable name then (object base).callMethod env name args
      else (object merged).callMethod env name args := rfl
  rw [callMethod_overlay, hcall, Fields.hasUncallable]
  have hentry := merges name
  cases hlocal : (s.heap.fields locals).get? name with
  | none =>
    rw [hlocal, Option.none_or] at hentry
    show (object base).callMethod env name args s = (object merged).callMethod env name args s
    rw [callMethod_object, callMethod_object, hentry]
  | some v =>
    rw [hlocal, Option.some_or] at hentry
    cases v with
    | function f =>
      show (some <$> env.call f args) s = (object merged).callMethod env name args s
      rw [callMethod_object, hentry]
      rfl
    | _ => rfl

end Value

theorem Heap.Merges.of_extends {h h' : Heap} {base locals merged : Nat}
    (merges : h.Merges base locals merged) (ext : h.Extends h') (hbase : base < h.objects.size)
    (hlocals : locals < h.objects.size) (hmerged : merged < h.objects.size) :
    h'.Merges base locals merged := by
  intro name
  rw [ext.fields_eq base hbase, ext.fields_eq locals hlocals, ext.fields_eq merged hmerged]
  exact merges name

namespace Expr

open Correspondence Comparison

variable {env : Embedding W} {filters : FilterLookup W}

/-- Names that answer as those of a scope, as long as what was in the heap is kept, can take their
place. -/
theorem evaluate_eq_evaluateBy (keeps : env.Keeping) (keepsFilters : filters.Keeping)
    {scope : Value} {names : Names W} {e : Expr}
    (he : ∀ target value, ¬ Within (assign target value) e) {s : Store W}
    (hget : ∀ t : Store W, s.heap.Extends t.heap → ∀ name, scope.get env name t = names.get name t)
    (hcall : ∀ t : Store W, s.heap.Extends t.heap → ∀ name args,
      Within (callScope name args) e → ∀ vs,
      scope.callMethod env name vs t = names.call name vs t) :
    e.evaluate env filters scope s = e.evaluateBy env filters names s := by
  have respects : (keeping W s.heap).Respects env := respects_keeping keeps
  have hself : (everywhere s.heap).Corresponds scope scope := corresponds_everywhere scope
  have supplies : (keeping W s.heap).Supplies (everywhere s.heap) (scope.names env) names e := by
    refine ⟨?_, ?_, fun v _ => corresponds_everywhere v⟩
    · rintro ρ - name t t' ⟨rfl, rfl, ht⟩
      rw [← hget t ht.1 name]
      exact Value.relates_get respects hself name t t ⟨rfl, rfl, ht⟩
    · rintro ρ - name args hd vs vs' hvs t t' ⟨rfl, rfl, ht⟩
      obtain rfl := values_everywhere_iff.mp hvs
      rw [← hcall t ht.1 name args hd vs]
      exact Value.relates_callMethod respects hself name hvs t t ⟨rfl, rfl, ht⟩
  rw [← evaluateBy_names env filters scope he]
  exact (eq_of_relates (fun _ _ => eq_of_everywhere)
    (relates_evaluateBy respects (respectsFilters_keeping keepsFilters) supplies)
    ⟨.refl _, trivial⟩).1

/-! ## writes -/

section
variable (env filters) (id base locals : Nat) (name : String)

/-- A bare name is written to the base. -/
theorem assignTo_overlay (v : Value) (s : Store W) :
    (scope name).assignTo env filters (.overlay id (.object base) (.object locals)) v s =
      .ok v { s with heap := s.heap.setFields base ((s.heap.fields base).insert name v) } := by
  rw [assignTo]
  rfl

theorem evaluateWith_assign {value : Expr} {v : Value} {s t : Store W}
    (hvalue : value.evaluateWith env filters (.object base) (.object locals) s = .ok v t) :
    (assign (scope name) value).evaluateWith env filters (.object base) (.object locals) s =
      .ok v { t with heap := t.heap.setFields base ((t.heap.fields base).insert name v) } := by
  rw [evaluateWith, bind_apply] at hvalue ⊢
  show (assign (scope name) value).evaluate env filters _ _ = _
  rw [evaluate, bind_apply, show value.evaluate env filters _ _ = _ from hvalue]
  exact assignTo_overlay env filters _ base locals name v t

end

/-! ## evaluating with locals -/

/-- **Locals in front of an object are one object with the entries of both**, whatever the functions
and filters do, as long as they leave existing values as they are. A call passes over a local that
is no function; where there is no such call, nothing tells the two apart. A bare name is written to
the object behind, and never to the locals. -/
theorem evaluateWith_merged (keeps : env.Keeping) (keepsFilters : filters.Keeping) {s : Store W}
    {base locals merged : Nat} (distinct : base ≠ locals) (hbase : base < s.heap.objects.size)
    (hlocals : locals < s.heap.objects.size) (hmerged : merged < s.heap.objects.size)
    (merges : s.heap.Merges base locals merged) :
    (∀ e : Expr, (∀ target value, ¬ Within (assign target value) e) →
      (e.evaluateWith env filters (.object base) (.object locals) s = (do
          let _ ← Action.newOverlay (.object base) (.object locals)
          e.evaluateBy env filters (.merged env (s.heap.fields locals) base merged)) s) ∧
      ((∀ name args, Within (callScope name args) e →
          (s.heap.fields locals).hasUncallable name = false) →
        e.evaluateWith env filters (.object base) (.object locals) s = (do
          let _ ← Action.newOverlay (.object base) (.object locals)
          e.evaluate env filters (.object merged)) s) ∧
      ∀ scope : Value, e.evaluateBy env filters (scope.names env) = e.evaluate env filters scope) ∧
    (∀ name v, ∃ t, (scope name).assignWith env (.object base) (.object locals) v s = .ok v t ∧
      t.heap.fields base = (s.heap.fields base).insert name v ∧
      t.heap.fields locals = s.heap.fields locals) ∧
    ∀ (name : String) (value : Expr) (v : Value) (t : Store W),
      value.evaluateWith env filters (.object base) (.object locals) s = .ok v t →
      base < t.heap.objects.size →
      ∃ t', (assign (scope name) value).evaluateWith env filters (.object base) (.object locals) s =
          .ok v t' ∧
        t'.heap.fields base = (t.heap.fields base).insert name v ∧
        t'.heap.fields locals = t.heap.fields locals := by
  -- making the overlay leaves the objects as they are
  let s₁ : Store W := { s with heap := { s.heap with overlays := s.heap.overlays + 1 } }
  have hkept : ∀ t : Store W, s₁.heap.Extends t.heap →
      t.heap.Merges base locals merged ∧ t.heap.fields locals = s.heap.fields locals :=
    fun t ht => ⟨Heap.Merges.of_extends (h := s₁.heap) merges ht hbase hlocals hmerged,
      ht.fields_eq locals hlocals⟩
  have hrun : ∀ (e : Expr) (names : Names W), (∀ target value, ¬ Within (assign target value) e) →
      names.get = (Value.object merged).get env →
      (∀ name args, Within (callScope name args) e →
        names.call name =
          (Names.merged env (s.heap.fields locals) base merged).call name) →
      e.evaluateWith env filters (.object base) (.object locals) s =
        e.evaluateBy env filters names s₁ := by
    intro e names he hget hcall
    refine evaluate_eq_evaluateBy keeps keepsFilters he (s := s₁) (fun t ht name => ?_)
      fun t ht name args hd vs => ?_
    · rw [hget]
      exact Value.get_overlay env _ name (hkept t ht).1
    · rw [hcall name args hd, ← (hkept t ht).2]
      exact Value.callMethod_overlay_merged env _ name (hkept t ht).1 vs
  refine ⟨fun e he => ⟨?_, fun hcalls => ?_, fun scope => evaluateBy_names env filters scope he⟩,
    fun name v => ?_, fun name value v t hvalue hknown => ?_⟩
  · exact hrun e (.merged env (s.heap.fields locals) base merged) he rfl fun _ _ _ => rfl
  · have hplain := hrun e ((Value.object merged).names env) he rfl fun name args hd => by
      funext vs
      show _ = ite _ _ _
      rw [hcalls name args hd]
      rfl
    rw [evaluateBy_names env filters (.object merged) he] at hplain
    exact hplain
  · refine ⟨_, assignTo_overlay env .none s.heap.overlays base locals name v s₁, ?_, ?_⟩
    · exact Heap.fields_setFields_self _ _ hbase
    · exact Heap.fields_setFields_of_ne _ _ (Ne.symm distinct)
  · refine ⟨_, evaluateWith_assign env filters base locals name hvalue, ?_, ?_⟩
    · exact Heap.fields_setFields_self _ _ hknown
    · exact Heap.fields_setFields_of_ne _ _ (Ne.symm distinct)

/-- Functions that answer with a fresh array of their arguments. -/
def listing : Embedding Unit where
  call _ args := Action.newArray args.toArray
  get _ _ := pure none
  set _ _ _ := pure false
  invoke _ _ _ := pure none

/-- An object, locals that hold null and a number for two of its names, and both in one object. -/
def layered : Heap where
  objects := #[[("a", .int 6), ("b", .int 7), ("f", .function 0)],
    [("a", .null), ("f", .int 5)],
    [("a", .null), ("b", .int 7), ("f", .int 5)]]

theorem merges_layered : layered.Merges 0 1 2 := by
  intro name
  show Fields.get? [("a", Value.null), ("b", .int 7), ("f", .int 5)] name =
    (Fields.get? [("a", Value.null), ("f", .int 5)] name).or
      (Fields.get? [("a", Value.int 6), ("b", .int 7), ("f", .function 0)] name)
  simp only [Fields.get?]
  by_cases ha : name = "a"
  · simp [ha]
  · by_cases hf : name = "f"
    · simp [hf]
    · simp [ha, hf]

/-- The local `f` is a number, so the function of the base is called, with the null that the local
`a` holds and the `b` of the base. -/
theorem evaluateWith_merged_layered :
    ∃ t : Store Unit,
      (callScope "f" [scope "a", scope "b"]).evaluateWith listing .none (.object 0) (.object 1)
        ⟨layered, ()⟩ = .ok (.array 0) t ∧
      t.heap.items 0 = #[.null, .int 7] ∧
      (do
        let _ ← Action.newOverlay (.object 0) (.object 1)
        (callScope "f" [scope "a", scope "b"]).evaluateBy listing .none
          (.merged listing (layered.fields 1) 0 2)) (⟨layered, ()⟩ : Store Unit) =
        .ok (.array 0) t := by
  have keeps : listing.Keeping := ⟨fun _ _ => .newArray _, fun _ _ => .pure _, fun _ _ _ => .pure _⟩
  have keepsFilters : (FilterLookup.none : FilterLookup Unit).Keeping := by
    rintro name run ⟨⟩
  have hassign : ∀ target value,
      ¬ Within (assign target value) (callScope "f" [scope "a", scope "b"]) := by
    intro target value h
    have hmem := mem_preorder_iff.mpr h
    simp [preorder_eq, parts] at hmem
  have hmerged := (evaluateWith_merged keeps keepsFilters (s := ⟨layered, ()⟩) (by decide)
    (by decide) (by decide) (by decide) merges_layered).1 _ hassign
  have hrun : (callScope "f" [scope "a", scope "b"]).evaluateWith listing .none (.object 0)
      (.object 1) ⟨layered, ()⟩ =
        .ok (.array 0) ⟨{ layered with arrays := #[#[.null, .int 7]], overlays := 1 }, ()⟩ := by
    rfl
  exact ⟨_, hrun, rfl, hmerged.1.symm.trans hrun⟩

end Expr

end TemplateExpr
