import TemplateExpr.Proofs.Watch.Obstacles
import TemplateExpr.Proofs.Watch.Transparency

/-!
# Watch trees with a context of their own

A tree that was built with a context does not look at what it is read against. It does what the tree
without one does when that is read against the context, again and again.

* `Check`, `Watch.readings`   readings of one tree, one after the other;
* `seen`                      what a reading shows: its result, the store, and the slots of the tree;
* `Follows`                   an action does behind other slots what it does by itself;
* `Watch.follows_read`        reading a tree with its leaves replaced is such an action;
* `WatchBuilder.readings_bound`   a bound context takes the place of all that a tree is read against.
-/

namespace TemplateExpr

variable {W α β : Type}

/-! ## readings -/

/-- A reading of a tree: what happened to the store since the last one, and what it is read
against. -/
structure Check (W : Type) where
  change : Store W → Store W
  ambient : Value

def Check.against (c : Value) (check : Check W) : Check W := { check with ambient := c }

/-- The readings of a tree one after the other. Each goes on with the store and the slots that the
last one left, whether that succeeded or not. -/
def Watch.readings (env : Embedding W) (w : Watch W) :
    List (Check W) → WatchStore W → List (EStateM.Result EvalError (WatchStore W) Observed)
  | [], _ => []
  | check :: rest, s =>
    let r := w.read env check.ambient ⟨check.change s.store, s.memos⟩
    r :: readings env w rest (stateAfter r)

/-- What a reading shows: the value or the error, the store afterwards, and what the slots from `k`
on hold. -/
def seen (k : Nat) (r : EStateM.Result EvalError (WatchStore W) Observed) :
    Except EvalError Observed × Store W × List (List Value) :=
  (answer r, (stateAfter r).store, (stateAfter r).memos.slots.toList.drop k)

/-! ## slots behind others -/

namespace Memos

theorem get_append (before m : Memos) (slot : Nat) :
    (before.append m).get (before.slots.size + slot) = m.get slot := by
  show ((before.slots ++ m.slots)[before.slots.size + slot]?).getD [] = (m.slots[slot]?).getD []
  rw [Array.getElem?_append_right (Nat.le_add_right _ _), Nat.add_sub_cancel_left]

theorem set_append (before m : Memos) (slot : Nat) (args : List Value) :
    (before.append m).set (before.slots.size + slot) args =
      before.append (m.set slot args) := by
  have hslots : (before.slots ++ m.slots).setIfInBounds (before.slots.size + slot) args =
      before.slots ++ m.slots.setIfInBounds slot args := by
    apply Array.toList_inj.mp
    rw [Array.toList_setIfInBounds, Array.toList_append, Array.toList_append,
      Array.toList_setIfInBounds, ← Array.length_toList,
      List.set_append_right _ _ (Nat.le_add_right _ _), Nat.add_sub_cancel_left]
  exact congrArg Memos.mk hslots

end Memos

/-- The slots of `before` in front of those of the result. -/
def behind (before : Memos) :
    EStateM.Result EvalError (WatchStore W) α → EStateM.Result EvalError (WatchStore W) α
  | .ok a t => .ok a ⟨t.store, before.append t.memos⟩
  | .error e t => .error e ⟨t.store, before.append t.memos⟩

/-- Behind the slots of `before`, the second action does what the first does by itself. -/
def Follows (before : Memos) (x y : WatchAction W α) : Prop :=
  ∀ s m, y ⟨s, before.append m⟩ = behind before (x ⟨s, m⟩)

namespace Follows

variable {before : Memos}

theorem lift (x : Action W α) : Follows before (Action.lift x) (Action.lift x) := by
  intro s m
  unfold Action.lift
  cases x s <;> rfl

theorem pure (a : α) : Follows before (Pure.pure a : WatchAction W α) (Pure.pure a) :=
  fun _ _ => rfl

theorem bind {x y : WatchAction W α} {k l : α → WatchAction W β} (hx : Follows before x y)
    (hk : ∀ a, Follows before (k a) (l a)) : Follows before (x >>= k) (y >>= l) := by
  intro s m
  rw [bind_apply, bind_apply, hx s m]
  cases x ⟨s, m⟩ with
  | ok a t => exact hk a t.store t.memos
  | error e t => rfl

theorem map (f : α → β) {x y : WatchAction W α} (hx : Follows before x y) :
    Follows before (f <$> x) (f <$> y) := by
  rw [← bind_pure_comp, ← bind_pure_comp]
  exact hx.bind fun a => .pure (f a)

theorem remembered (slot : Nat) (args : List Value) :
    Follows before (Combinator.remembered slot args : WatchAction W _)
      (Combinator.remembered (before.slots.size + slot) args) := by
  intro s m
  unfold Combinator.remembered
  rw [Memos.get_append]
  dsimp only
  rw [Memos.set_append]
  rfl

end Follows

theorem Combinator.follows_apply (before : Memos) (env : Embedding W) (f : Combinator W)
    (args : List Observed) :
    Follows before (f.apply env args)
      ((f.mapped before.slots.size fun run => run).apply env args) := by
  by_cases hf : ∃ slot run, f = filter slot run
  · obtain ⟨slot, run, rfl⟩ := hf
    rw [mapped, apply, apply]
    exact .bind (.remembered slot _) fun values => .lift (run values)
  · have hne : ∀ slot run, f ≠ filter slot run := fun slot run h => hf ⟨slot, run, h⟩
    have hmapped : (f.mapped before.slots.size fun run => run) = f := by
      cases f with
      | filter slot run => exact absurd rfl (hne slot run)
      | _ => rfl
    obtain ⟨y, hy⟩ := exists_lift hne env args
    rw [hmapped, hy]
    exact .lift y

namespace Watch

variable {env : Embedding W} {before : Memos} {rename : String → String} {root : Watch W}
  {ambient c : Value}

theorem follows_readAll {ws : List (Watch W)}
    (ih : ∀ w ∈ ws, Follows before (w.read env c)
      ((mapped before.slots.size rename (fun run => run) root w).read env ambient)) :
    Follows before (readAll env c ws)
      (readAll env ambient (mappedAll before.slots.size rename (fun run => run) root ws)) := by
  induction ws with
  | nil =>
    rw [mappedAll, readAll, readAll]
    exact .pure []
  | cons w ws ihws =>
    rw [mappedAll, readAll, readAll]
    refine .bind (ih w List.mem_cons_self) fun o => ?_
    refine .bind (ihws fun w' hw' => ih w' (List.mem_cons_of_mem w hw')) fun os => ?_
    exact .pure _

/-- **A tree with another root reads what that root gives.** -/
theorem follows_read (env : Embedding W) (before : Memos) (rename : String → String)
    (hroot : ∀ s, root.read env ambient s = .ok (.value c) s) (w : Watch W) :
    Follows before (w.read env c)
      ((mapped before.slots.size rename (fun run => run) root w).read env ambient) := by
  induction w using Watch.induction with
  | context =>
    intro s m
    rw [mapped, hroot, read]
    rfl
  | constant v id =>
    rw [mapped, read, read]
    exact .pure _
  | field base name ih =>
    rw [mapped, read, read]
    refine .bind ih fun o => ?_
    exact .bind (.lift _) fun v => .pure _
  | method base name args ih ihargs =>
    rw [mapped, read, read]
    refine .bind ih fun o => ?_
    by_cases hnull : o.get.isNull = true
    · simp only [hnull, if_true]
      exact .pure _
    · simp only [hnull, Bool.false_eq_true, if_false]
      refine .bind (follows_readAll ihargs) fun os => ?_
      refine .bind (.lift _) fun v => ?_
      cases v with
      | some v => exact .pure _
      | none => exact .lift _
  | compute label f args ih =>
    rw [mapped, read, read]
    refine .bind (follows_readAll ih) fun os => ?_
    exact .bind (f.follows_apply before env os) fun v => .pure _
  | collection inner ih =>
    rw [mapped, read_collection, read_collection]
    exact .map _ ih

theorem seen_behind (before : Memos) (r : EStateM.Result EvalError (WatchStore W) Observed) :
    seen before.slots.size (behind before r) = seen 0 r := by
  have hslots : ∀ m : Memos,
      (before.append m).slots.toList.drop before.slots.size = m.slots.toList := by
    intro m
    show (before.slots ++ m.slots).toList.drop before.slots.size = m.slots.toList
    rw [Array.toList_append, ← Array.length_toList, List.drop_left]
  have hslots := hslots (stateAfter r).memos
  cases r with
  | ok o t => exact congrArg (fun slots => (Except.ok o, t.store, slots)) hslots
  | error e t => exact congrArg (fun slots => (Except.error e, t.store, slots)) hslots

theorem stateAfter_behind (before : Memos)
    (r : EStateM.Result EvalError (WatchStore W) Observed) :
    stateAfter (behind before r) =
      ⟨(stateAfter r).store, before.append (stateAfter r).memos⟩ := by
  cases r <;> rfl

/-- The readings of a tree whose root gives `c` are those of the tree that is read against `c`. -/
theorem readings_mapped (env : Embedding W) (before : Memos) (rename : String → String)
    (w : Watch W) {checks : List (Check W)}
    (hroot : ∀ check ∈ checks, ∀ s, root.read env check.ambient s = .ok (.value c) s)
    (s : Store W) (m : Memos) :
    ((mapped before.slots.size rename (fun run => run) root w).readings env checks
        ⟨s, before.append m⟩).map (seen before.slots.size) =
      (w.readings env (checks.map (Check.against c)) ⟨s, m⟩).map (seen 0) := by
  induction checks generalizing s m with
  | nil => rfl
  | cons check checks ih =>
    have hread := follows_read env before rename (hroot check List.mem_cons_self) w
      (check.change s) m
    rw [List.map_cons, readings, readings]
    dsimp only
    rw [hread, List.map_cons, List.map_cons, seen_behind, stateAfter_behind,
      ih fun check' h => hroot check' (List.mem_cons_of_mem check h)]
    rfl

end Watch

namespace WatchBuilder

variable {b b' b₁ b₂ : WatchBuilder} {h : Heap} {filters : FilterLookup W} {source : String}
  {asCollection : Bool} {context : Option Value}

/-- The trees of a text are one tree with a root put in and slots counted on. -/
theorem build_eq_mapped (sound : b.cache.Sound) {tree : Watch W}
    (built : build h filters source asCollection context b = .ok tree b') (h₀ : Heap) :
    ∃ t, answer (build h₀ filters source asCollection none {}) = .ok t ∧
      tree = Watch.mapped b.memos.slots.size id (fun run => run) (rootAt context b.contexts) t ∧
      b'.memos = b.memos.append
        (stateAfter (build h₀ filters source asCollection none {})).memos := by
  have hmapped := build_mapped sound h₀ h filters (fun run => run) source asCollection context
  rw [filters.map_run, built] at hmapped
  obtain ⟨hanswer, hmemos⟩ := hmapped
  cases ht : answer (build h₀ filters source asCollection none {}) with
  | error err =>
    rw [ht] at hanswer
    cases hanswer
  | ok t =>
    rw [ht] at hanswer
    exact ⟨t, rfl, Except.ok.inj hanswer, hmemos⟩

/-- A text is refused for the same reason with any context. -/
theorem build_error_iff (sound : b.cache.Sound) (h h₀ : Heap) (filters : FilterLookup W)
    (source : String) (asCollection : Bool) (context : Option Value) (err : WatchError) :
    answer (build h filters source asCollection context b) = .error err ↔
      answer (build h₀ filters source asCollection none {}) = .error err := by
  have hmapped := build_mapped sound h₀ h filters (fun run => run) source asCollection context
  rw [filters.map_run] at hmapped
  rw [hmapped.1]
  cases answer (build h₀ filters source asCollection none {}) <;> simp [Except.map]

/-- **A bound context takes the place of all that a tree is read against.** The tree with the context
`c`, read against anything, shows reading by reading what the tree without one shows when it is read
against `c`: results and errors, the store, and what its filters remember. -/
theorem readings_bound (sound₁ : b₁.cache.Sound) (sound₂ : b₂.cache.Sound) (h₁ h₂ : Heap)
    (filters : FilterLookup W) (source : String) (asCollection : Bool) (c : Value) :
    (∀ err, answer (build h₁ filters source asCollection (some c) b₁) = .error err ↔
      answer (build h₂ filters source asCollection none b₂) = .error err) ∧
    ∀ bound b₁' free b₂',
      build h₁ filters source asCollection (some c) b₁ = .ok bound b₁' →
      build h₂ filters source asCollection none b₂ = .ok free b₂' →
      ∀ (env : Embedding W) (checks : List (Check W)) (s : Store W),
        (bound.readings env checks ⟨s, b₁'.memos⟩).map (seen b₁.memos.slots.size) =
          (free.readings env (checks.map (Check.against c)) ⟨s, b₂'.memos⟩).map
            (seen b₂.memos.slots.size) := by
  constructor
  · intro err
    rw [build_error_iff sound₁ h₁ h₁, build_error_iff sound₂ h₂ h₁]
  · intro bound b₁' free b₂' hbound hfree env checks s
    obtain ⟨t, ht, rfl, hmemos₁⟩ := build_eq_mapped sound₁ hbound h₁
    obtain ⟨t', ht', rfl, hmemos₂⟩ := build_eq_mapped sound₂ hfree h₁
    obtain rfl : t = t' := Except.ok.inj (ht.symm.trans ht')
    have hagain : (checks.map (Check.against c)).map (Check.against c) =
        checks.map (Check.against c) := by
      rw [List.map_map]
      rfl
    have hbase : ∀ check ∈ checks, ∀ s,
        (rootAt (some c) b₁.contexts : Watch W).read env check.ambient s = .ok (.value c) s :=
      fun check _ s => by rw [rootAt, Watch.read]; rfl
    have hcontext : ∀ check ∈ checks.map (Check.against c), ∀ s,
        (rootAt none b₂.contexts : Watch W).read env check.ambient s = .ok (.value c) s := by
      intro check hcheck s
      obtain ⟨check, -, rfl⟩ := List.mem_map.mp hcheck
      rw [rootAt, Watch.read]
      rfl
    rw [hmemos₁, hmemos₂, Watch.readings_mapped env b₁.memos id t hbase,
      Watch.readings_mapped env b₂.memos id t hcontext, hagain]

/-- A tree that is bound to an object reads that object again when it was changed, whatever it is
read against. -/
theorem readings_bound_refreshed :
    ∃ (bound : Watch Unit) (b' : WatchBuilder),
      build .empty (fun _ => some passOn) "a | f" false (some (.object 0)) {} = .ok bound b' ∧
      (bound.readings .none [⟨id, .null⟩, ⟨fun _ => holding (.int 2), .object 5⟩]
          ⟨holding (.int 1), b'.memos⟩).map (seen 0) =
        [(.ok (.value (.int 1)), holding (.int 1), [[.int 1]]),
          (.ok (.value (.int 2)), holding (.int 2), [[.int 2]])] := by
  obtain ⟨b₂', hfree, hmemos⟩ := build_passOn
  obtain ⟨bound, b₁', hbound⟩ : ∃ bound b₁',
      build .empty (fun _ => some passOn) "a | f" false (some (.object 0)) {} =
        .ok bound b₁' := ⟨_, _, by cbv⟩
  refine ⟨bound, b₁', hbound, ?_⟩
  refine ((readings_bound ParseCache.sound_empty ParseCache.sound_empty .empty .empty
    (fun _ => some passOn) "a | f" false (.object 0)).2 bound b₁' _ b₂' hbound hfree .none _
    (holding (.int 1))).trans ?_
  rw [hmemos]
  rfl

end WatchBuilder

end TemplateExpr
