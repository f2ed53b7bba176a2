import TemplateExpr.Proofs.Expr.Assignment
import TemplateExpr.Proofs.Expr.Parts

/-!
# Reads never fail

What is missing reads as null, and so does everything below it. A tree of reads therefore has a
value in every scope of plain data, and this value is plain data again.

* `Snapshot.Whole`     nothing was cut off at a cycle, and `Heap.whole_snapshot` where that holds;
* `Heap.segment`       the segment that a computed key stands for;
* `Yields`             an action that succeeds from every larger heap;
* `Expr.Readable`      the nodes of reads;
* `Expr.yields_evaluate`   evaluating a tree of reads succeeds;
* `Expr.reads_total`   the same at every node, and null is passed on.
-/

namespace TemplateExpr

/-! ## texts of data -/

/-- Every container was opened or left closed, and none was met inside itself. -/
inductive Snapshot.Whole : Snapshot → Prop where
  | leaf (v) : Whole (.leaf v)
  | array {r items} : (∀ x ∈ items, Whole x) → Whole (.array r items)
  | object {r fields} : (∀ p ∈ fields, Whole p.2) → Whole (.object r fields)
  | overlay {id scope locals} : Whole scope → Whole locals → Whole (.overlay id scope locals)

theorem Snapshot.Reach.opens_eq_false (reach : Reach) {v : Value} (hleaf : v.isContainer = false)
    (hplain : v.isPlain = true) : reach.opens v = false := by
  cases v with
  | array r => cases hleaf
  | object r => cases hleaf
  | overlay id scope locals => cases hplain
  | _ => cases reach <;> rfl

namespace Heap

variable {h : Heap}

theorem whole_unfold {P : Value → Prop} {reach : Snapshot.Reach}
    (hreach : ∀ w, w.isContainer = false → P w → reach.opens w = false) {v : Value}
    (hv : h.Data P v) {n : Nat} {path : List Value} (hpath : h.Above v path)
    (hn : h.arrays.size + h.objects.size < n + path.length) :
    (h.unfold reach n path v).Whole := by
  induction hv generalizing n path with
  | @leaf v hleaf hP =>
    obtain ⟨m, rfl, _⟩ := hpath.exists_succ hn
    rw [unfold, hreach v hleaf hP]
    exact .leaf v
  | @array r hr hitems ih =>
    have hdata : h.Data P (.array r) := .array hr hitems
    obtain ⟨m, rfl, hm⟩ := hpath.exists_succ hn
    have hopen : reach.opens (.array r) = true := by cases reach <;> rfl
    rw [unfold, hopen, hpath.findIdx?_eq_none hdata rfl]
    refine .array fun x hx => ?_
    obtain ⟨w, hw, rfl⟩ := List.mem_map.mp hx
    exact ih w hw (hpath.cons hdata (.item hw)) hm
  | @object r hr hfields ih =>
    have hdata : h.Data P (.object r) := .object hr hfields
    obtain ⟨m, rfl, hm⟩ := hpath.exists_succ hn
    rw [unfold, hpath.findIdx?_eq_none hdata rfl]
    cases reach.opens (.object r) with
    | false => exact .leaf _
    | true =>
      refine .object fun x hx => ?_
      obtain ⟨p, hp, rfl⟩ := List.mem_map.mp hx
      exact ih p hp (hpath.cons hdata (.field hp)) hm

/-- **A snapshot is whole of data whose leaves it leaves closed.** -/
theorem whole_snapshot {P : Value → Prop} {reach : Snapshot.Reach}
    (hreach : ∀ w, w.isContainer = false → P w → reach.opens w = false) {v : Value}
    (hv : h.Data P v) : (h.snapshot reach v).Whole := by
  refine whole_unfold hreach hv (.nil v) ?_
  rw [List.length_nil]
  omega

theorem Data.whole_snapshot {v : Value} (hv : h.PlainData v) (reach : Snapshot.Reach) :
    (h.snapshot reach v).Whole :=
  Heap.whole_snapshot (fun _ => reach.opens_eq_false) hv

/-! ## computed keys -/

/-- Numbers are the places of items in arrays and texts. Every other key is the name that its text
spells. -/
def segment (h : Heap) (c k : Value) : Segment :=
  match c, k.asInt? with
  | .array _, some n => .key (.int n) rfl
  | .str _, some n => .key (.int n) rfl
  | _, _ => .member (h.text k)

end Heap

/-- Reading with any key, of any kind, reads one segment of the receiver. -/
theorem Value.keyed_apply {W : Type} (env : Embedding W) {c : Value} (hc : c.isPlain = true)
    (k : Value) (s : Store W) :
    c.keyed env k s = .ok (s.heap.step c (s.heap.segment c k)) s := by
  have hget := get_apply env hc s (s.heap.text k)
  cases c with
  | null => rfl
  | host id => cases hc
  | overlay id scope locals => cases hc
  | array r =>
    show (array r).getKeyed env k s = _
    cases hint : k.asInt? with
    | none =>
      simp only [getKeyed, Heap.segment, hint]
      exact hget
    | some n =>
      simp only [getKeyed, Heap.segment, asIndex?, hint]
      rfl
  | str t =>
    show (str t).getKeyed env k s = _
    cases hint : k.asInt? with
    | none =>
      simp only [getKeyed, Heap.segment, hint]
      exact hget
    | some n =>
      simp only [getKeyed, Heap.segment, asIndex?, hint]
      rfl
  | _ => exact hget

namespace Fields

variable {α : Type}

theorem mem_of_mem_insert {fields : Fields α} {name : String} {a : α} {p : String × α}
    (hp : p ∈ insert fields name a) : p = (name, a) ∨ p ∈ fields := by
  induction fields with
  | nil => exact .inl (List.mem_singleton.mp hp)
  | cons q rest ih =>
    obtain ⟨key, b⟩ := q
    rw [insert] at hp
    split at hp
    · exact (List.mem_cons.mp hp).imp_right (List.mem_cons_of_mem _)
    · split at hp
      · exact List.mem_cons.mp hp
      · rcases List.mem_cons.mp hp with rfl | hp
        · exact .inr List.mem_cons_self
        · exact (ih hp).imp_right (List.mem_cons_of_mem _)

theorem mem_of_mem_foldl_insert {fields pairs : Fields α} {p : String × α}
    (hp : p ∈ pairs.foldl (fun fields pair => insert fields pair.1 pair.2) fields) :
    p ∈ fields ∨ p ∈ pairs := by
  induction pairs generalizing fields with
  | nil => exact .inl hp
  | cons q rest ih =>
    rcases ih hp with hp | hp
    · rcases mem_of_mem_insert hp with rfl | hp
      · exact .inr List.mem_cons_self
      · exact .inl hp
    · exact .inr (List.mem_cons_of_mem _ hp)

theorem mem_of_mem_ofPairs {pairs : List (String × α)} {p : String × α}
    (hp : p ∈ ofPairs pairs) : p ∈ pairs :=
  (mem_of_mem_foldl_insert hp).resolve_left List.not_mem_nil

end Fields

/-! ## actions that succeed -/

variable {W α β : Type}

/-- From every heap that extends `base` the action succeeds. It only adds to the heap and leaves the
rest of the store, and its result is as `R` says of the heap after it. -/
def Yields (base : Heap) (R : Heap → α → Prop) (x : Action W α) : Prop :=
  ∀ s : Store W, base.Extends s.heap →
    ∃ a t, x s = .ok a t ∧ s.heap.Extends t.heap ∧ t.world = s.world ∧ R t.heap a

namespace Yields

variable {base : Heap} {R : Heap → α → Prop} {Q : Heap → β → Prop}

theorem pure {a : α} (ha : ∀ h, base.Extends h → R h a) :
    Yields base R (Pure.pure a : Action W α) :=
  fun s hs => ⟨a, s, rfl, .refl _, rfl, ha s.heap hs⟩

theorem bind {x : Action W α} {k : α → Action W β} (hx : Yields base R x)
    (hk : ∀ h a, base.Extends h → R h a → Yields h Q (k a)) : Yields base Q (x >>= k) := by
  intro s hs
  obtain ⟨a, s₁, ha, hext, hworld, hR⟩ := hx s hs
  obtain ⟨b, t, hb, hext', hworld', hQ⟩ := hk s₁.heap a (hs.trans hext) hR s₁ (.refl _)
  refine ⟨b, t, ?_, hext.trans hext', hworld'.trans hworld, hQ⟩
  rw [bind_apply, ha]
  exact hb

/-- An action that changes nothing. -/
theorem of_apply {x : Action W α} (f : Heap → α) (hx : ∀ s, base.Extends s.heap →
    x s = .ok (f s.heap) s ∧ R s.heap (f s.heap)) : Yields base R x :=
  fun s hs => ⟨f s.heap, s, (hx s hs).1, .refl _, rfl, (hx s hs).2⟩

end Yields

section
variable {base : Heap} {c : Value}

theorem yields_get (env : Embedding W) (hc : base.PlainData c) (name : String) :
    Yields base Heap.PlainData (c.get env name) := by
  refine .of_apply (fun h => h.step c (.member name)) fun s hs => ?_
  exact ⟨Value.readAt_apply env hc.isPlain s (.member name), (hc.mono hs).step _⟩

theorem yields_keyed (env : Embedding W) (hc : base.PlainData c) (k : Value) :
    Yields base Heap.PlainData (c.keyed env k) := by
  refine .of_apply (fun h => h.step c (h.segment c k)) fun s hs => ?_
  exact ⟨Value.keyed_apply env hc.isPlain k s, (hc.mono hs).step _⟩

theorem yields_bool (b : Bool) : Yields base Heap.PlainData (pure (.bool b) : Action W Value) :=
  .pure fun _ _ => .leaf rfl rfl

theorem yields_ofItems {vs : List Value} (hvs : ∀ v ∈ vs, base.PlainData v) :
    Yields base Heap.PlainData (Value.ofItems vs : Action W Value) := by
  intro s hs
  refine ⟨_, _, rfl, s.heap.extends_newArray _, rfl, ?_⟩
  exact Heap.data_newArray fun v hv => (hvs v hv).mono hs

theorem yields_ofEntries (keys : List String) {vs : List Value}
    (hvs : ∀ v ∈ vs, base.PlainData v) :
    Yields base Heap.PlainData (Value.ofEntries keys vs : Action W Value) := by
  intro s hs
  refine ⟨_, _, rfl, s.heap.extends_newObject _, rfl, ?_⟩
  refine Heap.data_newObject fun p hp => ?_
  exact (hvs p.2 (List.of_mem_zip (Fields.mem_of_mem_ofPairs hp)).2).mono hs

end

/-! ## trees of reads -/

namespace Expr

/-- Accesses, literals of plain data, and the operators that take operands of all kinds. -/
def Readable (h : Heap) : Expr → Prop
  | scope _ | member .. | keyed .. | str _ | array _ | object .. | not _ | conditional .. => True
  | binary op _ _ => op = .and ∨ op = .or ∨ op = .equal ∨ op = .notEqual
  | literal v => h.PlainData v
  | _ => False

theorem Readable.mono {h h' : Heap} {e : Expr} (hext : h.Extends h') (he : e.Readable h) :
    e.Readable h' := by
  cases e with
  | literal v => exact Heap.Data.mono hext he
  | _ => exact he

variable (env : Embedding W) (filters : FilterLookup W) {scope : Value} {base : Heap}

theorem yields_evaluateAll {es : List Expr}
    (hes : ∀ e ∈ es, ∀ h, base.Extends h →
      Yields h Heap.PlainData (e.evaluate env filters scope)) :
    Yields base (fun h vs => ∀ v ∈ vs, h.PlainData v) (evaluateAll env filters scope es) := by
  induction es generalizing base with
  | nil =>
    rw [evaluateAll]
    exact .pure fun h _ v hv => absurd hv List.not_mem_nil
  | cons e es ih =>
    rw [evaluateAll]
    refine (hes e List.mem_cons_self base (.refl _)).bind fun h v hext hv => ?_
    have hrest := ih fun e' he' h' hext' =>
      hes e' (List.mem_cons_of_mem e he') h' (hext.trans hext')
    refine hrest.bind fun h' vs hext' hvs => .pure fun h'' hext'' => ?_
    have hall : ∀ w ∈ v :: vs, h'.PlainData w :=
      List.forall_mem_cons.mpr ⟨hv.mono hext', hvs⟩
    exact fun w hw => (hall w hw).mono hext''

/-- Evaluating a tree of reads succeeds, and gives plain data. -/
theorem yields_evaluate {e : Expr} (hscope : base.PlainData scope)
    (he : ∀ d, Within d e → d.Readable base) :
    Yields base Heap.PlainData (e.evaluate env filters scope) := by
  induction e using parts_induction generalizing base with
  | step e ih =>
    obtain ⟨hself, hparts⟩ := forall_within_iff.mp he
    have ih : ∀ p ∈ e.parts, ∀ h, base.Extends h →
        Yields h Heap.PlainData (p.evaluate env filters scope) :=
      fun p hp h hext => ih p hp (hscope.mono hext) fun d hd => (hparts p hp d hd).mono hext
    cases e with
    | scope name =>
      rw [evaluate]
      exact yields_get env hscope name
    | member receiver name =>
      rw [evaluate]
      refine (ih receiver (by simp [parts]) base (.refl _)).bind fun h v _ hv => ?_
      exact yields_get env hv name
    | keyed receiver key =>
      rw [evaluate]
      refine (ih receiver (by simp [parts]) base (.refl _)).bind fun h v hext hv => ?_
      refine (ih key (by simp [parts]) h hext).bind fun h' k hext' _ => ?_
      exact yields_keyed env (hv.mono hext') k
    | literal v =>
      rw [evaluate]
      exact .pure fun h hext => Heap.Data.mono hext hself
    | str t =>
      rw [evaluate]
      exact .pure fun _ _ => .leaf rfl rfl
    | array es =>
      rw [evaluate]
      exact (yields_evaluateAll env filters ih).bind fun h vs _ hvs => yields_ofItems hvs
    | object keys es =>
      rw [evaluate]
      exact (yields_evaluateAll env filters ih).bind fun h vs _ hvs => yields_ofEntries keys hvs
    | not operand =>
      rw [evaluate]
      refine (ih operand (by simp [parts]) base (.refl _)).bind fun h v _ _ => ?_
      exact yields_bool _
    | conditional condition yes no =>
      rw [evaluate]
      refine (ih condition (by simp [parts]) base (.refl _)).bind fun h v hext _ => ?_
      split
      · exact ih yes (by simp [parts]) h hext
      · exact ih no (by simp [parts]) h hext
    | binary op left right =>
      have hleft := ih left (by simp [parts]) base (.refl _)
      have hright := ih right (by simp [parts])
      rcases hself with rfl | rfl | rfl | rfl
      · rw [evaluate]
        refine hleft.bind fun h v hext _ => ?_
        split
        · exact (hright h hext).bind fun h' w _ _ => yields_bool _
        · exact yields_bool _
      · rw [evaluate]
        refine hleft.bind fun h v hext _ => ?_
        split
        · exact yields_bool _
        · exact (hright h hext).bind fun h' w _ _ => yields_bool _
      -- both equalities compare what the operands give
      all_goals
        rw [evaluate]
        · exact hleft.bind fun h v hext _ => (hright h hext).bind fun h' w _ _ => yields_bool _
        · simp
        · simp
    | _ => exact hself.elim

theorem evaluate_member_of_null {receiver : Expr} {s t : Store W}
    (hnull : receiver.evaluate env filters scope s = .ok .null t) (name : String) :
    (member receiver name).evaluate env filters scope s = .ok .null t := by
  rw [evaluate, bind_apply, hnull]
  rfl

/-- The key is evaluated all the same. -/
theorem evaluate_keyed_of_null {receiver key : Expr} {s t u : Store W} {k : Value}
    (hnull : receiver.evaluate env filters scope s = .ok .null t)
    (hkey : key.evaluate env filters scope t = .ok k u) :
    (keyed receiver key).evaluate env filters scope s = .ok .null u := by
  rw [evaluate, bind_apply, hnull]
  show (key.evaluate env filters scope >>= _) t = _
  rw [bind_apply, hkey]
  rfl

/-- **Reads are total.** In an acyclic scope without host objects every node of a tree of reads has
a value, from each store that evaluation can meet it in: plain data, whose text is nowhere cut off.
A member or key of null is null. -/
theorem reads_total {e : Expr} {s : Store W} (hacyclic : s.heap.Acyclic scope)
    (hplain : ∀ w, Relation.ReflTransGen s.heap.Contains scope w → w.isPlain = true)
    (he : ∀ d, Within d e → d.Readable s.heap) :
    ∀ d, Within d e → ∀ s' : Store W, s.heap.Extends s'.heap →
      (∃ v t, d.evaluate env filters scope s' = .ok v t ∧ s'.heap.Extends t.heap ∧
        t.world = s'.world ∧ t.heap.PlainData v ∧ (t.heap.snapshot .arrays v).Whole) ∧
      (∀ receiver name t, d = member receiver name →
        receiver.evaluate env filters scope s' = .ok .null t →
        d.evaluate env filters scope s' = .ok .null t) ∧
      ∀ receiver key t, d = keyed receiver key →
        receiver.evaluate env filters scope s' = .ok .null t →
        ∃ u, d.evaluate env filters scope s' = .ok .null u := by
  have hscope := Heap.plainData_iff.mpr ⟨hacyclic, hplain⟩
  have hyields : ∀ d, Within d e →
      Yields s.heap Heap.PlainData (d.evaluate env filters scope) := fun d hd =>
    yields_evaluate env filters hscope fun d' hd' => he d' (hd'.trans hd)
  intro d hd s' hs'
  refine ⟨?_, ?_, ?_⟩
  · obtain ⟨v, t, hv, hext, hworld, hdata⟩ := hyields d hd s' hs'
    exact ⟨v, t, hv, hext, hworld, hdata, hdata.whole_snapshot .arrays⟩
  · rintro receiver name t rfl hnull
    exact evaluate_member_of_null env filters hnull name
  · rintro receiver key t rfl hnull
    have hreceiver : Within receiver (keyed receiver key) := .part (by simp [parts]) (.self _)
    have hkey : Within key (keyed receiver key) := .part (by simp [parts]) (.self _)
    obtain ⟨_, _, hv, hext, _, _⟩ := hyields receiver (hreceiver.trans hd) s' hs'
    rw [hnull] at hv
    cases hv
    obtain ⟨k, u, hk, _⟩ := hyields key (hkey.trans hd) t (hs'.trans hext)
    exact ⟨u, evaluate_keyed_of_null env filters hnull hk⟩

/-- `zz.y[[1.5, 'k']]` -/
def missingRead : Expr :=
  .keyed (.member (.scope "zz") "y") (.array [.literal (.float 1.5), .str "k"])

/-- `zz.y[[1.5, 'k']] == {b: [a.b]}[!a] ? a.b[-1].c : 'abc'['length']` -/
def mixedRead : Expr :=
  .conditional
    (.binary .equal missingRead
      (.keyed (.object ["b"] [.array [.member (.scope "a") "b"]]) (.not (.scope "a"))))
    (.member (.keyed (.member (.scope "a") "b") (.literal (.int (-1)))) "c")
    (.keyed (.str "abc") (.str "length"))

theorem readable_mixedRead : ∀ d, Within d mixedRead → d.Readable nestedStore.heap := by
  have hliterals : nestedStore.heap.PlainData (.float 1.5) ∧
      nestedStore.heap.PlainData (.int (-1)) := ⟨.leaf rfl rfl, .leaf rfl rfl⟩
  simpa [← mem_preorder_iff, mixedRead, missingRead, preorder_eq, parts, Readable] using hliterals

/-- The member of a missing name and what a list finds in it are null, and the comparison with them
has its value. -/
theorem reads_total_mixed :
    nestedStore.heap.Acyclic (.object 0) ∧
      (∀ w, Relation.ReflTransGen nestedStore.heap.Contains (.object 0) w → w.isPlain = true) ∧
      (∀ d, Within d mixedRead → d.Readable nestedStore.heap) ∧
      (∃ v t, mixedRead.evaluate .none FilterLookup.none (.object 0) nestedStore = .ok v t ∧
        t.heap.PlainData v) ∧
      ∃ u, missingRead.evaluate .none FilterLookup.none (.object 0) nestedStore = .ok .null u := by
  obtain ⟨hacyclic, hplain⟩ := Heap.plainData_iff.mp plainData_nestedStore
  have htotal := reads_total .none FilterLookup.none hacyclic hplain readable_mixedRead
  refine ⟨hacyclic, hplain, readable_mixedRead, ?_, ?_⟩
  · obtain ⟨⟨v, t, hv, _, _, hdata, _⟩, _⟩ := htotal mixedRead (.self _) nestedStore (.refl _)
    exact ⟨v, t, hv, hdata⟩
  · have hmissing : Within missingRead mixedRead :=
      .part List.mem_cons_self (.part List.mem_cons_self (.self _))
    have hnull : (member (.scope "zz") "y").evaluate .none FilterLookup.none (.object 0)
        nestedStore = .ok .null nestedStore := by
      rw [evaluate, evaluate]
      rfl
    obtain ⟨_, _, hkeyed⟩ := htotal missingRead hmissing nestedStore (.refl _)
    exact hkeyed _ _ _ rfl hnull

end Expr

end TemplateExpr
