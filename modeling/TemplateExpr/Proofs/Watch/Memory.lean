import Mathlib.Data.List.Forall2
import TemplateExpr.Proofs.Number.Bits
import TemplateExpr.Proofs.Watch.Simulation

/-!
# The memory of filters

Each filter of a watch tree is given what its slot remembers, brought up to date with the values
of its inputs.

* `Watch.calls`     the calls of filters while a tree is read, with what they observe and receive;
* `Watch.slots`     the slots of the filters of a tree;
* `Value.Near`      values that the memory cannot tell apart: a value and itself, the two zeros, and
                    overlays of one number, which are one handle;
* `Unremembering`   actions that do the same where nothing is remembered;
* `Recalls`         an action with its calls, and what they have to do with the memory;
* `Watch.recalls_read`   reading a tree is such an action.
-/

namespace TemplateExpr

variable {W α β γ : Type}

/-! ## calls -/

/-- A call of a filter: the values of its inputs, and the arguments that it is given. -/
structure FilterCall where
  observed : List Value
  received : List Value

/-- The filter is given the values of its inputs. -/
def FilterCall.Exact (call : FilterCall) : Prop := call.received = call.observed

/-- The calls that follow an action, if it succeeds. -/
def callsAfter (r : EStateM.Result EvalError (WatchStore W) α)
    (calls : α → WatchStore W → List FilterCall) : List FilterCall :=
  match r with
  | .ok a s => calls a s
  | .error .. => []

def Combinator.calls (f : Combinator W) (args : List Observed) (s : WatchStore W) :
    List FilterCall :=
  match f with
  | filter slot _ =>
    callsAfter (remembered slot (args.map Observed.get) s) fun values _ =>
      [⟨args.map Observed.get, values⟩]
  | _ => []

namespace Watch

mutual

/-- The calls of filters while a tree is read, in their order. -/
def calls (env : Embedding W) (ambient : Value) : Watch W → WatchStore W → List FilterCall
  | context, _ => []
  | constant .., _ => []
  | field base _, s => calls env ambient base s
  | method base _ args, s =>
    calls env ambient base s ++ callsAfter (read env ambient base s) fun o s' =>
      if o.get.isNull then [] else callsAll env ambient args s'
  | compute _ f args, s =>
    callsAll env ambient args s ++ callsAfter (readAll env ambient args s) f.calls
  | collection inner, s => calls env ambient inner s

def callsAll (env : Embedding W) (ambient : Value) :
    List (Watch W) → WatchStore W → List FilterCall
  | [], _ => []
  | w :: rest, s =>
    calls env ambient w s ++ callsAfter (read env ambient w s) fun _ s' =>
      callsAll env ambient rest s'

end

end Watch

/-! ## slots -/

/-- The slot of a filter, with the number of its inputs. -/
def Combinator.slots (arity : Nat) : Combinator W → List (Nat × Nat)
  | filter slot _ => [(slot, arity)]
  | _ => []

namespace Watch

mutual

/-- The slots of the filters of a tree, with the numbers of their inputs. -/
def slots : Watch W → List (Nat × Nat)
  | context | constant .. => []
  | field base _ => slots base
  | method base _ args => slots base ++ slotsAll args
  | compute _ f args => slotsAll args ++ f.slots args.length
  | collection inner => slots inner

def slotsAll : List (Watch W) → List (Nat × Nat)
  | [] => []
  | w :: rest => slots w ++ slotsAll rest

end

end Watch

namespace Memos

/-- The slots hold as many arguments as their filters have inputs. -/
def Fits (slots : List (Nat × Nat)) (m : Memos) : Prop :=
  ∀ p ∈ slots, (m.get p.1).length = p.2

/-- The slots are as they were made. -/
def Fresh (slots : List (Nat × Nat)) (m : Memos) : Prop :=
  ∀ p ∈ slots, m.get p.1 = List.replicate p.2 .null

theorem Fits.of_get {slots : List (Nat × Nat)} {m m' : Memos}
    (h : ∀ p ∈ slots, m'.get p.1 = m.get p.1) (hm : m.Fits slots) : m'.Fits slots := by
  intro p hp
  rw [h p hp]
  exact hm p hp

theorem Fresh.of_get {slots : List (Nat × Nat)} {m m' : Memos}
    (h : ∀ p ∈ slots, m'.get p.1 = m.get p.1) (hm : m.Fresh slots) : m'.Fresh slots := by
  intro p hp
  rw [h p hp]
  exact hm p hp

theorem Fresh.fits {slots : List (Nat × Nat)} {m : Memos} (hm : m.Fresh slots) :
    m.Fits slots := by
  intro p hp
  rw [hm p hp, List.length_replicate]

theorem get_set_of_ne (m : Memos) {slot i : Nat} (h : slot ≠ i) (args : List Value) :
    (m.set slot args).get i = m.get i := by
  rw [get, get, set, Array.getElem?_setIfInBounds_ne h]

theorem get_set_self (m : Memos) (slot : Nat) (args : List Value) :
    (m.set slot args).get slot = if slot < m.slots.size then args else [] := by
  rw [get, set, Array.getElem?_setIfInBounds_self]
  split <;> rfl

theorem get_of_size_le {m : Memos} {slot : Nat} (h : m.slots.size ≤ slot) : m.get slot = [] := by
  rw [get, Array.getElem?_eq_none h]
  rfl

end Memos

/-! ## arguments that the memory keeps -/

/-- One value, or the two zeros. Overlays of one number are one handle, so that their parts are not
compared. -/
inductive Value.Near : Value → Value → Prop where
  | refl (v : Value) : Near v v
  | zeros (a b : Bool) : Near (float (Binary64.zero a)) (float (Binary64.zero b))
  | overlay (id : Nat) (scope locals scope' locals' : Value) :
      Near (overlay id scope locals) (overlay id scope' locals')

theorem Value.near_of_same {v w : Value} (h : v.same w = true) : v.Near w := by
  cases v <;> cases w <;> simp only [same, Bool.false_eq_true, beq_iff_eq] at h
  case float.float x y =>
    rcases Binary64.eq_or_zeros_of_beq h with rfl | ⟨a, b, rfl, rfl⟩
    · exact .refl _
    · exact .zeros a b
  case overlay.overlay =>
    subst h
    exact .overlay ..
  case null.null => exact .refl _
  all_goals
    subst h
    exact .refl _

theorem Memos.near_refresh {last args : List Value} (h : last.length = args.length) :
    List.Forall₂ Value.Near (refresh last args) args := by
  induction args generalizing last with
  | nil =>
    obtain rfl : last = [] := by simpa using h
    exact .nil
  | cons v args ih =>
    cases last with
    | nil => simp at h
    | cons old last =>
      rw [refresh]
      refine .cons ?_ (ih (by simpa using h))
      split
      · next hsame => exact Value.near_of_same hsame
      · exact .refl v

/-! ## actions without memory -/

/-- The actions do the same where nothing is remembered, and remember nothing there. -/
def Unremembering (x y : WatchAction W α) : Prop :=
  ∀ s, x ⟨s, .empty⟩ = y ⟨s, .empty⟩ ∧ memosAfter (x ⟨s, .empty⟩) = .empty

namespace Unremembering

theorem lift (x : Action W α) : Unremembering (Action.lift x) (Action.lift x) := by
  intro s
  refine ⟨rfl, ?_⟩
  unfold Action.lift
  cases x s <;> rfl

theorem pure (a : α) : Unremembering (Pure.pure a : WatchAction W α) (Pure.pure a) :=
  fun _ => ⟨rfl, rfl⟩

theorem map (f : α → β) {x y : WatchAction W α} (h : Unremembering x y) :
    Unremembering (f <$> x) (f <$> y) := by
  intro s
  obtain ⟨heq, hempty⟩ := h s
  rw [map_apply, map_apply, ← heq]
  refine ⟨rfl, ?_⟩
  cases hr : x ⟨s, .empty⟩ with
  | ok a s' =>
    rw [hr] at hempty
    exact hempty
  | error e s' =>
    rw [hr] at hempty
    exact hempty

theorem bind {x y : WatchAction W α} {k l : α → WatchAction W β} (h : Unremembering x y)
    (hk : ∀ a s s', x s = .ok a s' → Unremembering (k a) (l a)) :
    Unremembering (x >>= k) (y >>= l) := by
  intro s
  obtain ⟨heq, hempty⟩ := h s
  rw [bind_apply, bind_apply, ← heq]
  cases hr : x ⟨s, .empty⟩ with
  | error e s' =>
    rw [hr] at hempty
    exact ⟨rfl, hempty⟩
  | ok a s' =>
    rw [hr] at hempty
    obtain ⟨store, memos⟩ := s'
    obtain rfl : memos = .empty := hempty
    exact hk a _ _ hr store

theorem remembered (slot slot' : Nat) (args : List Value) :
    Unremembering (Combinator.remembered slot args : WatchAction W _)
      (Combinator.remembered slot' args) := fun _ => ⟨rfl, rfl⟩

end Unremembering

/-! ## actions that recall -/

/-- An action that makes calls of filters and uses these slots only. With slots that fit, each call
receives what it observes or what is near. Where each call receives what it observes, the memory
makes no difference. -/
structure Recalls (slots : List (Nat × Nat)) (x : WatchAction W α)
    (calls : WatchStore W → List FilterCall) : Prop where
  frame : ∀ s m i, i ∉ slots.map Prod.fst → (memosAfter (x ⟨s, m⟩)).get i = m.get i
  fits : ∀ s m, m.Fits slots → (memosAfter (x ⟨s, m⟩)).Fits slots
  near : ∀ s m, m.Fits slots → ∀ call ∈ calls ⟨s, m⟩,
    List.Forall₂ Value.Near call.received call.observed
  fresh : ∀ s m, m.Fresh slots → ∀ call ∈ calls ⟨s, m⟩, call.Exact
  forgets : Unremembering x x
  exact : ∀ s m, (∀ call ∈ calls ⟨s, m⟩, call.Exact) →
    visible id (x ⟨s, m⟩) = visible id (x ⟨s, .empty⟩)

namespace Recalls

variable {slots slots' : List (Nat × Nat)}

theorem lift (x : Action W α) : Recalls slots (Action.lift x) fun _ => [] := by
  have hkeeps : ∀ s m, memosAfter (Action.lift x ⟨s, m⟩) = m := by
    intro s m
    unfold Action.lift
    cases x s <;> rfl
  refine ⟨fun s m i _ => by rw [hkeeps], fun s m hm => by rwa [hkeeps], by simp, by simp,
    .lift x, fun s m _ => ?_⟩
  unfold Action.lift
  cases x s <;> rfl

theorem pure (a : α) : Recalls slots (Pure.pure a : WatchAction W α) fun _ => [] :=
  lift (Pure.pure a)

theorem map (f : α → β) {x : WatchAction W α} {calls : WatchStore W → List FilterCall}
    (hx : Recalls slots x calls) : Recalls slots (f <$> x) calls := by
  have hmemos : ∀ s, memosAfter ((f <$> x) s) = memosAfter (x s) := by
    intro s
    rw [map_apply]
    cases x s <;> rfl
  have hvisible : ∀ s, visible id ((f <$> x) s) = visible f (x s) := by
    intro s
    rw [map_apply]
    cases x s <;> rfl
  have hthrough : ∀ r r' : EStateM.Result EvalError (WatchStore W) α,
      visible id r = visible id r' → visible f r = visible f r' := by
    intro r r' h
    cases r <;> cases r' <;> simp_all [visible]
  refine ⟨fun s m i hi => ?_, fun s m hm => ?_, hx.near, hx.fresh, .map f hx.forgets,
    fun s m hc => ?_⟩
  · rw [hmemos, hx.frame s m i hi]
  · rw [hmemos]
    exact hx.fits s m hm
  · rw [hvisible, hvisible]
    exact hthrough _ _ (hx.exact s m hc)

/-! One action after another. -/

section
variable {x : WatchAction W α} {k : α → WatchAction W β} {calls : WatchStore W → List FilterCall}
  {calls' : α → WatchStore W → List FilterCall}

theorem forall_mem_callsAfter {P : FilterCall → Prop} {s : WatchStore W}
    (h : ∀ a s', x s = .ok a s' → ∀ call ∈ calls' a s', P call) :
    ∀ call ∈ callsAfter (x s) calls', P call := by
  cases hr : x s with
  | error e s' => simp [callsAfter]
  | ok a s' => exact h a s' hr

/-- Where the first action does the same to the store in two memories, so does the whole if the
second action does. -/
theorem visible_bind {s t : WatchStore W} (h : visible id (x s) = visible id (x t))
    (hk : ∀ a s' t', x s = .ok a s' → x t = .ok a t' → s'.store = t'.store →
      visible id (k a s') = visible id (k a t')) :
    visible id ((x >>= k) s) = visible id ((x >>= k) t) := by
  rw [bind_apply, bind_apply]
  cases hs : x s with
  | error e s' =>
    cases ht : x t with
    | error e' t' => simpa [hs, ht, visible] using h
    | ok b t' => simp [hs, ht, visible] at h
  | ok a s' =>
    cases ht : x t with
    | error e' t' => simp [hs, ht, visible] at h
    | ok b t' =>
      obtain ⟨rfl, hstore⟩ : a = b ∧ s'.store = t'.store := by simpa [hs, ht, visible] using h
      exact hk a s' t' hs ht hstore

variable (apart : ∀ q ∈ slots', q.1 ∉ slots.map Prod.fst) (hx : Recalls slots x calls)
  (hk : ∀ a s s', x s = .ok a s' → Recalls slots' (k a) (calls' a))

include apart hx in
/-- The slots of the second action are not touched by the first. -/
theorem get_of_apart {s : WatchStore W} {a : α} {s' : WatchStore W} (hr : x s = .ok a s') :
    ∀ q ∈ slots', s'.memos.get q.1 = s.memos.get q.1 := by
  intro q hq
  have hframe := hx.frame s.store s.memos q.1 (apart q hq)
  rw [show x ⟨s.store, s.memos⟩ = .ok a s' from hr] at hframe
  exact hframe

include hx hk in
theorem bind_frame (s : Store W) (m : Memos) {i : Nat} (hi : i ∉ slots.map Prod.fst)
    (hi' : i ∉ slots'.map Prod.fst) : (memosAfter ((x >>= k) ⟨s, m⟩)).get i = m.get i := by
  have hfirst := hx.frame s m i hi
  rw [bind_apply]
  cases hr : x ⟨s, m⟩ with
  | error e s' =>
    rw [hr] at hfirst
    exact hfirst
  | ok a s' =>
    rw [hr] at hfirst
    exact ((hk a _ s' hr).frame s'.store s'.memos i hi').trans hfirst

include apart hx hk in
theorem bind_fits (s : Store W) {m : Memos} (hm : m.Fits slots) (hm' : m.Fits slots') :
    (memosAfter ((x >>= k) ⟨s, m⟩)).Fits (slots ++ slots') := by
  have hfirst := hx.fits s m hm
  have hsecond : (memosAfter (x ⟨s, m⟩)).Fits slots' :=
    hm'.of_get fun q hq => hx.frame s m q.1 (apart q hq)
  rw [bind_apply]
  cases hr : x ⟨s, m⟩ with
  | error e s' =>
    rw [hr] at hfirst hsecond
    exact List.forall_mem_append.mpr ⟨hfirst, hsecond⟩
  | ok a s' =>
    rw [hr] at hfirst hsecond
    have hback : ∀ p ∈ slots, (memosAfter (k a s')).get p.1 = s'.memos.get p.1 := by
      intro p hp
      refine (hk a _ s' hr).frame s'.store s'.memos p.1 fun hmem => ?_
      obtain ⟨q, hq, heq⟩ := List.mem_map.mp hmem
      exact apart q hq (heq ▸ List.mem_map_of_mem hp)
    exact List.forall_mem_append.mpr
      ⟨Memos.Fits.of_get hback hfirst, (hk a _ s' hr).fits s'.store s'.memos hsecond⟩

include hx hk in
theorem bind_exact {s : Store W} {m : Memos} (hcalls : ∀ call ∈ calls ⟨s, m⟩, call.Exact)
    (hcalls' : ∀ call ∈ callsAfter (x ⟨s, m⟩) calls', call.Exact) :
    visible id ((x >>= k) ⟨s, m⟩) = visible id ((x >>= k) ⟨s, .empty⟩) := by
  refine visible_bind (hx.exact s m hcalls) fun a s' t' hs ht hstore => ?_
  have hempty := (hx.forgets s).2
  rw [ht] at hempty
  rw [hs] at hcalls'
  obtain ⟨store, memos⟩ := t'
  obtain rfl : memos = .empty := hempty
  obtain rfl : s'.store = store := hstore
  exact (hk a _ s' hs).exact s'.store s'.memos hcalls'

include apart hx hk in
theorem bind :
    Recalls (slots ++ slots') (x >>= k) fun s => calls s ++ callsAfter (x s) calls' where
  frame s m i hi := by
    rw [List.map_append, List.mem_append, not_or] at hi
    exact bind_frame hx hk s m hi.1 hi.2
  fits s m hm := by
    obtain ⟨hm₁, hm₂⟩ := List.forall_mem_append.mp hm
    exact bind_fits apart hx hk s hm₁ hm₂
  near s m hm := by
    obtain ⟨hm₁, hm₂⟩ := List.forall_mem_append.mp hm
    refine List.forall_mem_append.mpr ⟨hx.near s m hm₁, forall_mem_callsAfter fun a s' hr => ?_⟩
    exact (hk a _ s' hr).near s'.store s'.memos (Memos.Fits.of_get (get_of_apart apart hx hr) hm₂)
  fresh s m hm := by
    obtain ⟨hm₁, hm₂⟩ := List.forall_mem_append.mp hm
    refine List.forall_mem_append.mpr ⟨hx.fresh s m hm₁, forall_mem_callsAfter fun a s' hr => ?_⟩
    exact (hk a _ s' hr).fresh s'.store s'.memos (Memos.Fresh.of_get (get_of_apart apart hx hr) hm₂)
  forgets := .bind hx.forgets fun a s s' hr => (hk a s s' hr).forgets
  exact s m hcalls := by
    obtain ⟨hcalls₁, hcalls₂⟩ := List.forall_mem_append.mp hcalls
    exact bind_exact hx hk hcalls₁ hcalls₂

end

/-- An action with no calls of its own behind another one. -/
theorem bind_quiet {x : WatchAction W α} {k : α → WatchAction W β}
    {calls : WatchStore W → List FilterCall} (hx : Recalls slots x calls)
    (hk : ∀ a, Recalls [] (k a) fun _ => []) : Recalls slots (x >>= k) calls := by
  have hboth := bind (by simp) hx fun a _ _ _ => hk a
  have hcalls : (fun s => calls s ++ callsAfter (x s) fun _ _ => []) = calls := by
    funext s
    have hnone : callsAfter (x s) (fun _ _ => []) = [] := by
      unfold callsAfter
      split <;> rfl
    rw [hnone, List.append_nil]
  rw [List.append_nil] at hboth
  rwa [hcalls] at hboth

/-- The slot of a filter. -/
theorem remembered (slot : Nat) (args : List Value) :
    Recalls [(slot, args.length)] (Combinator.remembered slot args : WatchAction W _) fun s =>
      callsAfter (Combinator.remembered slot args s) fun values _ => [⟨args, values⟩] where
  frame s m i hi := by
    have hne : slot ≠ i := by
      rintro rfl
      simp at hi
    exact m.get_set_of_ne hne _
  fits s m hm := by
    have hlength : (m.get slot).length = args.length := by simpa [Memos.Fits] using hm
    have hrefresh := (Memos.near_refresh hlength).length_eq
    refine List.forall_mem_singleton.mpr ?_
    show ((m.set slot (Memos.refresh (m.get slot) args)).get slot).length = args.length
    rw [m.get_set_self]
    split
    · exact hrefresh
    · next hout =>
      rw [Memos.get_of_size_le (Nat.le_of_not_lt hout)] at hlength
      exact hlength
  near s m hm := by
    refine List.forall_mem_singleton.mpr ?_
    exact Memos.near_refresh (by simpa [Memos.Fits] using hm)
  fresh s m hm := by
    refine List.forall_mem_singleton.mpr ?_
    have hslot : m.get slot = List.replicate args.length .null := by
      simpa [Memos.Fresh] using hm
    show Memos.refresh (m.get slot) args = args
    rw [hslot, Memos.refresh_nulls]
  forgets := .remembered slot slot args
  exact s m hcalls := by
    have hexact : FilterCall.Exact ⟨args, Memos.refresh (m.get slot) args⟩ :=
      List.forall_mem_singleton.mp hcalls
    have hempty : Memos.refresh (Memos.empty.get slot) args = args := by
      cases args <;> rfl
    show EStateM.Result.ok _ s = EStateM.Result.ok _ s
    rw [id_eq, id_eq, show Memos.refresh (m.get slot) args = args from hexact, hempty]

end Recalls

/-! ## reading -/

namespace Watch

/-- Induction on trees. -/
@[elab_as_elim]
theorem induction {motive : Watch W → Prop} (context : motive context)
    (constant : ∀ v id, motive (constant v id))
    (field : ∀ base name, motive base → motive (field base name))
    (method : ∀ base name args, motive base → (∀ w ∈ args, motive w) →
      motive (method base name args))
    (compute : ∀ label f args, (∀ w ∈ args, motive w) → motive (compute label f args))
    (collection : ∀ inner, motive inner → motive (collection inner)) (w : Watch W) : motive w := by
  refine @Watch.rec W motive (fun ws => ∀ w ∈ ws, motive w) context constant field method compute
    collection ?_ ?_ w
  · simp
  · intro w ws hw hws
    exact List.forall_mem_cons.mpr ⟨hw, hws⟩

variable {env : Embedding W} {ambient : Value}

theorem apart_of_nodup {slots slots' : List (Nat × Nat)}
    (h : ((slots ++ slots').map Prod.fst).Nodup) : ∀ q ∈ slots', q.1 ∉ slots.map Prod.fst := by
  intro q hq hmem
  rw [List.map_append] at h
  exact (List.nodup_append.mp h).2.2 q.1 hmem q.1 (List.mem_map_of_mem hq) rfl

theorem recalls_readAll {ws : List (Watch W)}
    (ih : ∀ w ∈ ws, (w.slots.map Prod.fst).Nodup →
      Recalls w.slots (w.read env ambient) (w.calls env ambient))
    (h : ((slotsAll ws).map Prod.fst).Nodup) :
    Recalls (slotsAll ws) (readAll env ambient ws) (callsAll env ambient ws) := by
  induction ws with
  | nil =>
    rw [readAll]
    exact .pure []
  | cons w ws ihws =>
    rw [slotsAll] at h ⊢
    have hparts := h
    rw [List.map_append] at hparts
    obtain ⟨hw, hws, _⟩ := List.nodup_append.mp hparts
    have hrest := ihws (fun w hw => ih w (List.mem_cons_of_mem _ hw)) hws
    rw [readAll]
    simp only [bind_pure_comp]
    exact .bind (apart_of_nodup h) (ih w (by simp) hw) fun o _ _ _ => .map _ hrest

end Watch

/-- Only filters see the memory. -/
theorem Combinator.exists_lift {f : Combinator W} (hf : ∀ slot run, f ≠ filter slot run)
    (env : Embedding W) (args : List Observed) : ∃ y, f.apply env args = Action.lift y := by
  cases f with
  | filter slot run => exact absurd rfl (hf slot run)
  | not | select =>
    rw [Combinator.apply.eq_def]
    dsimp only
    split
    · exact ⟨Pure.pure _, rfl⟩
    · exact ⟨_, rfl⟩
  | binary | keyed =>
    rw [Combinator.apply.eq_def]
    dsimp only
    split
    · exact ⟨_, rfl⟩
    · exact ⟨_, rfl⟩
  | array | object =>
    rw [Combinator.apply]
    exact ⟨_, rfl⟩

theorem Combinator.recalls_apply (env : Embedding W) (f : Combinator W) (args : List Observed) :
    Recalls (f.slots args.length) (f.apply env args) (f.calls args) := by
  by_cases hf : ∃ slot run, f = filter slot run
  · obtain ⟨slot, run, rfl⟩ := hf
    have hslot := Recalls.remembered (W := W) slot (args.map Observed.get)
    rw [List.length_map] at hslot
    rw [Combinator.apply]
    exact .bind_quiet hslot fun values => .lift (run values)
  · have hne : ∀ slot run, f ≠ filter slot run := fun slot run h => hf ⟨slot, run, h⟩
    have hcalls : f.calls args = fun _ => [] := by
      cases f with
      | filter slot run => exact absurd rfl (hne slot run)
      | _ => rfl
    obtain ⟨y, hy⟩ := exists_lift hne env args
    rw [hy, hcalls]
    exact .lift y

namespace Watch

/-- **Reading a tree whose filters have slots of their own.** -/
theorem recalls_read (env : Embedding W) (ambient : Value) (w : Watch W)
    (h : (w.slots.map Prod.fst).Nodup) :
    Recalls w.slots (w.read env ambient) (w.calls env ambient) := by
  induction w using Watch.induction with
  | context =>
    rw [read]
    exact .pure _
  | constant v id =>
    rw [read]
    exact .pure _
  | field base name ih =>
    rw [read]
    refine .bind_quiet (ih h) fun o => ?_
    rw [bind_pure_comp]
    exact .map _ (.lift _)
  | method base name args ih ihargs =>
    rw [slots] at h ⊢
    have hparts := h
    rw [List.map_append] at hparts
    obtain ⟨hbase, hargs, _⟩ := List.nodup_append.mp hparts
    rw [read]
    refine .bind (apart_of_nodup h) (ih hbase) fun o _ _ _ => ?_
    by_cases hnull : o.get.isNull = true
    · simp only [hnull, if_true]
      exact .pure _
    · simp only [hnull, Bool.false_eq_true, if_false]
      refine .bind_quiet (recalls_readAll ihargs hargs) fun os => ?_
      refine .bind_quiet (.lift _) fun v => ?_
      cases v with
      | some v => exact .pure _
      | none => exact .lift _
  | compute label f args ih =>
    rw [slots] at h ⊢
    have hparts := h
    rw [List.map_append] at hparts
    obtain ⟨hargs, _, _⟩ := List.nodup_append.mp hparts
    rw [read]
    simp only [bind_pure_comp]
    refine .bind (apart_of_nodup h) (recalls_readAll ih hargs) fun os s s' hr => ?_
    rw [← length_readAll hr]
    exact .map _ (f.recalls_apply env os)
  | collection inner ih =>
    rw [read_collection]
    exact .map _ (ih h)

end Watch

end TemplateExpr
