import Mathlib.Tactic
import SparseTiling.Proofs.Code.Meaning

/-!
# The effect of each statement

What the variables in scope are after a declaration or an assignment, and for each kind
of statement the state it leaves. Later proofs run emitted code with these and do not
look into the interpreter.

* `value?_put_self`, `value?_put_of_ne`, `objects_put`: what an assignment changes.
* `Does`: statements that run to their end.
* `forEach_spec`: an invariant of the iterations is one of the loop.
-/

namespace SparseTiling.Code

variable {Obj : Type} {p : Platform Obj} {σ σ₁ σ₂ : State Obj}

-- The equations of a recursive definition are proved when a simp set first takes it in. Proofs run
-- side by side and would each prove those of the interpreter again, so it is taken in once before them. The
-- attribute ends with the section: no later proof unfolds the interpreter unless it says so.
section Equations

attribute [local simp] Frame.put Frames.value? Frames.put eval evalAll exec execAll perform

end Equations

/-! ## Variables -/

theorem lookup_cons_ite (name : String) (d : String × Value Obj) (f : Frame Obj) :
    List.lookup name (d :: f) = if name = d.1 then some d.2 else f.lookup name := by
  rw [List.lookup_cons]
  by_cases h : name = d.1
  · simp [h]
  · rw [beq_false_of_ne h, if_neg h]

namespace Frame

variable {name other : String} {v w : Value Obj} {f : Frame Obj}

theorem lookup_put_self (h : (f.lookup name).isSome) : (put name v f).lookup name = some v := by
  induction f with
  | nil => simp at h
  | cons d f ih =>
    rw [lookup_cons_ite] at h
    by_cases hd : name = d.1
    · simp [put, hd]
    · simp only [put, hd, if_false, lookup_cons_ite] at h ⊢
      exact ih h

theorem lookup_put_of_ne (h : other ≠ name) : (put name v f).lookup other = f.lookup other := by
  induction f with
  | nil => rfl
  | cons d f ih =>
    by_cases hd : name = d.1
    · have : other ≠ d.1 := hd ▸ h
      simp [put, hd, lookup_cons_ite, this]
    · simp [put, hd, lookup_cons_ite, ih]

theorem isSome_lookup_put : ((put name v f).lookup other).isSome = (f.lookup other).isSome := by
  induction f with
  | nil => rfl
  | cons d f ih =>
    by_cases hd : name = d.1
    · by_cases ho : other = d.1 <;> simp [put, hd, ho, lookup_cons_ite]
    · by_cases ho : other = d.1
      · subst ho
        simp [put, hd, lookup_cons_ite]
      · simp [put, hd, ho, lookup_cons_ite, ih]

theorem put_put : put name v (put name w f) = put name v f := by
  induction f with
  | nil => rfl
  | cons d f ih => by_cases hd : name = d.1 <;> simp [put, hd, ih]

theorem put_self (h : f.lookup name = some v) : put name v f = f := by
  induction f with
  | nil => rfl
  | cons d f ih =>
    rw [lookup_cons_ite] at h
    by_cases hd : name = d.1
    · obtain rfl : d.2 = v := by simpa [hd] using h
      simp [put, hd]
    · simp only [hd, if_false] at h
      simp [put, hd, ih h]

theorem put_comm (h : name ≠ other) :
    put name v (put other w f) = put other w (put name v f) := by
  induction f with
  | nil => rfl
  | cons d f ih =>
    by_cases hd : name = d.1
    · have : other ≠ d.1 := fun ho => h (hd.trans ho.symm)
      simp [put, hd, this]
    · by_cases ho : other = d.1
      · simp only [put, hd, ho, if_true, if_false]
      · simp [put, hd, ho, ih]

/-- Numbers, texts and arrays come and go without touching the objects. -/
theorem objects_put (hv : v.object? = none) (hw : f.lookup name = some w)
    (hwo : w.object? = none) : (put name v f).objects = f.objects := by
  induction f with
  | nil => rfl
  | cons d f ih =>
    rw [lookup_cons_ite] at hw
    by_cases hd : name = d.1
    · obtain rfl : d.2 = w := by simpa [hd] using hw
      simp [put, hd, objects, hv, hwo]
    · simp only [hd, if_false] at hw
      have := ih hw
      simp only [objects] at this
      simp [put, hd, objects, List.filterMap_cons, this]

end Frame

namespace Frames

variable {name other : String} {v w : Value Obj} {f : Frame Obj} {fs : Frames Obj}

theorem value?_cons : value? (f :: fs) name = (f.lookup name).or (fs.value? name) := by
  unfold value?
  rw [List.findSome?_cons]
  cases f.lookup name <;> rfl

theorem value?_cons_of_some (h : f.lookup name = some v) : value? (f :: fs) name = some v := by
  rw [value?_cons, h, Option.some_or]

theorem value?_cons_of_none (h : f.lookup name = none) :
    value? (f :: fs) name = fs.value? name := by
  rw [value?_cons, h, Option.none_or]

theorem put_cons_of_isSome (h : (f.lookup name).isSome) :
    put name v (f :: fs) = f.put name v :: fs := by
  simp [put, h]

theorem put_cons_of_none (h : f.lookup name = none) :
    put name v (f :: fs) = f :: put name v fs := by
  simp [put, h]

theorem value?_put_self (h : (fs.value? name).isSome) : (fs.put name v).value? name = some v := by
  induction fs with
  | nil => simp [value?] at h
  | cons f fs ih =>
    cases hf : f.lookup name with
    | none =>
      rw [value?_cons_of_none hf] at h
      rw [put_cons_of_none hf, value?_cons_of_none hf, ih h]
    | some w =>
      have hs : (f.lookup name).isSome := by simp [hf]
      rw [put_cons_of_isSome hs, value?_cons_of_some (Frame.lookup_put_self hs)]

theorem value?_put_of_ne (h : other ≠ name) : (fs.put name v).value? other = fs.value? other := by
  induction fs with
  | nil => rfl
  | cons f fs ih =>
    cases hf : f.lookup name with
    | none => rw [put_cons_of_none hf, value?_cons, value?_cons, ih]
    | some w =>
      have hs : (f.lookup name).isSome := by simp [hf]
      rw [put_cons_of_isSome hs, value?_cons, value?_cons, Frame.lookup_put_of_ne h]

theorem put_put : put name v (put name w fs) = put name v fs := by
  induction fs with
  | nil => rfl
  | cons f fs ih =>
    cases hf : f.lookup name with
    | none => rw [put_cons_of_none hf, put_cons_of_none hf, put_cons_of_none hf, ih]
    | some u =>
      have hs : (f.lookup name).isSome := by simp [hf]
      have hs' : ((f.put name w).lookup name).isSome := by rwa [Frame.isSome_lookup_put]
      rw [put_cons_of_isSome hs, put_cons_of_isSome hs', put_cons_of_isSome hs, Frame.put_put]

theorem put_self (h : fs.value? name = some v) : put name v fs = fs := by
  induction fs with
  | nil => rfl
  | cons f fs ih =>
    cases hf : f.lookup name with
    | none =>
      rw [value?_cons_of_none hf] at h
      rw [put_cons_of_none hf, ih h]
    | some w =>
      rw [value?_cons_of_some hf] at h
      obtain rfl : w = v := by simpa using h
      rw [put_cons_of_isSome (by simp [hf]), Frame.put_self hf]

theorem put_comm (h : name ≠ other) : put name v (put other w fs) = put other w (put name v fs) := by
  induction fs with
  | nil => rfl
  | cons f fs ih =>
    simp only [put]
    by_cases hn : (f.lookup name).isSome <;> by_cases ho : (f.lookup other).isSome <;>
      simp [put, hn, ho, Frame.isSome_lookup_put, ih, Frame.put_comm h]

theorem value?_declare_self : (fs.declare name v).value? name = some v := by
  cases fs <;> simp [declare, value?]

theorem value?_declare_of_ne (h : other ≠ name) :
    (fs.declare name v).value? other = fs.value? other := by
  cases fs <;> simp [declare, value?, List.findSome?_cons, lookup_cons_ite, h]

theorem put_declare_self : (fs.declare name v).put name w = fs.declare name w := by
  cases fs <;> simp [declare, put, Frame.put]

theorem objects_cons : objects (f :: fs) = f.objects ++ fs.objects := rfl

theorem objects_put (hv : v.object? = none) (hw : fs.value? name = some w)
    (hwo : w.object? = none) : (fs.put name v).objects = fs.objects := by
  induction fs with
  | nil => rfl
  | cons f fs ih =>
    cases hf : f.lookup name with
    | none =>
      rw [value?_cons_of_none hf] at hw
      rw [put_cons_of_none hf, objects_cons, objects_cons, ih hw]
    | some u =>
      rw [value?_cons_of_some hf] at hw
      obtain rfl : u = w := by simpa using hw
      have hs : (f.lookup name).isSome := by simp [hf]
      rw [put_cons_of_isSome hs, objects_cons, objects_cons, Frame.objects_put hv hf hwo]

end Frames

/-! ## Names in declarations -/

/-- Most names declare a plain variable. -/
theorem declarator_of_getLast {text : String} (h : text.toList.getLast? ≠ some ']') :
    declarator text = (text, none) := by
  unfold declarator
  split
  · next rest hr =>
    refine absurd ?_ h
    have := congrArg List.head? hr
    simpa using this
  · rfl

theorem getLast_append_toString (text : String) (n : Nat) :
    ∃ c : Char, (text ++ toString n).toList.getLast? = some c ∧ c.isDigit := by
  have hne : Nat.toDigits 10 n ≠ [] := Nat.toDigits_ne_nil
  refine ⟨(Nat.toDigits 10 n).getLast hne, ?_, ?_⟩
  · rw [String.toList_append, Nat.toString_eq_ofList_toDigits, String.toList_ofList,
      List.getLast?_append_of_ne_nil _ hne, List.getLast?_eq_some_getLast hne]
  · exact Nat.isDigit_of_mem_toDigits (by omega) (by omega) (List.getLast_mem hne)

theorem declarator_append_toString (text : String) (n : Nat) :
    declarator (text ++ toString n) = (text ++ toString n, none) := by
  obtain ⟨c, hc, hd⟩ := getLast_append_toString text n
  apply declarator_of_getLast
  rw [hc]
  rintro ⟨⟩
  simp at hd

/-- An extent in brackets declares an array. -/
theorem declarator_extent (name : String) (n : Nat) :
    declarator (name ++ "[" ++ toString n ++ "]") = (name, some n) := by
  have hdigits : ∀ c ∈ (Nat.toDigits 10 n).reverse, (decide (c ≠ '[')) = true := by
    intro c hc
    have := Nat.isDigit_of_mem_toDigits (by omega) (by omega) (List.mem_reverse.1 hc)
    simp only [ne_eq, decide_eq_true_eq]
    rintro rfl
    simp at this
  have htext : (name ++ "[" ++ toString n ++ "]").toList.reverse
      = ']' :: ((Nat.toDigits 10 n).reverse ++ '[' :: name.toList.reverse) := by
    simp
  have hdrop : ((Nat.toDigits 10 n).reverse ++ '[' :: name.toList.reverse).drop
      ((Nat.toDigits 10 n).length + 1) = name.toList.reverse := by
    rw [List.drop_append]
    simp
  -- from the end: a bracket, digits, a bracket, and what is left is the name
  unfold declarator
  rw [htext]
  simp only
  rw [List.takeWhile_append_of_pos hdigits]
  simp [Nat.ofDigitChars_ten_toDigits, hdrop]

/-! ## Statements -/

section Statements

variable {type name text var : String} {e target : Expr} {v : Value Obj} {s : Stmt}
  {rest first body : List Stmt}

/-- A call, once its arguments are known. -/
theorem eval_callName {args : List Expr} {vs : List (Value Obj)}
    (h : evalAll p σ args = some vs) : eval p σ (.callName name args) = p.call σ.now name vs := by
  rw [Expr.callName, eval, h]
  rfl

theorem exec_callName {args : List Expr} (h : eval p σ (.callName name args) = some v) :
    exec p (.expr (.callName name args)) σ = some (.next, σ) := by
  rw [Expr.callName, eval] at h
  obtain ⟨vs, hargs, hcall⟩ := Option.bind_eq_some_iff.1 h
  simp [exec, Expr.callName, perform, hargs, hcall]

theorem exec_declare (hn : declarator name = (name, none)) (he : eval p σ e = some v) :
    exec p (.declare type name e) σ
      = some (.next, { σ with frames := σ.frames.declare name v }) := by
  simp [Stmt.declare, exec, he, State.declare, hn, initial]

theorem exec_declareBare (hn : declarator name = (name, none)) :
    exec p (.declareBare type name) σ
      = some (.next, { σ with frames := σ.frames.declare name (blankOf type) }) := by
  simp [Stmt.declareBare, exec, State.declare, hn, initial]

theorem exec_declare_array {n : Nat} {items : List (Value Obj)}
    (he : eval p σ e = some (.array items)) :
    exec p (.declare type (name ++ "[" ++ toString n ++ "]") e) σ
      = some (.next, { σ with frames := σ.frames.declare name (padded n items) }) := by
  simp only [Stmt.declare, exec, he, State.declare, declarator_extent]
  rfl

theorem exec_declareBare_array {n : Nat} :
    exec p (.declareBare type (name ++ "[" ++ toString n ++ "]")) σ
      = some (.next, { σ with
        frames := σ.frames.declare name (.array (List.replicate n (blankOf type))) }) := by
  simp only [Stmt.declareBare, exec, State.declare, declarator_extent]
  rfl

theorem exec_assign (he : eval p σ e = some v) (hn : (σ.frames.value? name).isSome) :
    exec p (.assign (.ident name) e) σ
      = some (.next, { σ with frames := σ.frames.put name v }) := by
  simp [exec, he, place, Frames.write, hn]

/-- An assignment to a variable of the innermost block. -/
theorem exec_assign_local {f : Frame Obj} {fs : Frames Obj} {now : Int}
    {trace : List (Event Obj)} (he : eval p ⟨f :: fs, now, trace⟩ e = some v)
    (hn : (f.lookup name).isSome) :
    exec p (.assign (.ident name) e) ⟨f :: fs, now, trace⟩
      = some (.next, ⟨f.put name v :: fs, now, trace⟩) := by
  have hvalue : (Frames.value? (f :: fs) name).isSome := by
    rw [Frames.value?_cons_of_some (Option.eq_some_of_isSome hn)]
    rfl
  rw [exec_assign he hvalue, Frames.put_cons_of_isSome hn]

theorem place_index {k : Nat} (he : eval p σ e = some (.int k)) :
    place p σ (.index (.ident name) e) = some (name, some (k : Int)) := by
  simp [place, he]

/-- Changing an element changes its array. -/
theorem change_element {k : Nat} {items : List (Value Obj)} {old new : Value Obj}
    {f : Value Obj → Option (Value Obj)} (ha : σ.frames.value? name = some (.array items))
    (hk : items[k]? = some old) (hf : f old = some new) :
    σ.change (name, some (k : Int)) f
      = some { σ with frames := σ.frames.put name (.array (items.set k new)) } := by
  obtain ⟨hlt, rfl⟩ := List.getElem?_eq_some_iff.1 hk
  simp [State.change, Frames.read, Frames.write, Value.element?, ha, hf, hlt]

theorem exec_addAssign_element {k : Nat} {items : List (Value Obj)} {a b : Int} {i : Expr}
    (hi : eval p σ i = some (.int k)) (ha : σ.frames.value? name = some (.array items))
    (hk : items[k]? = some (.int a)) (he : eval p σ e = some (.int b)) :
    exec p (.addAssign (.index (.ident name) i) e) σ
      = some (.next, { σ with frames := σ.frames.put name (.array (items.set k (.int (a + b)))) }) := by
  have hc : σ.change (name, some (k : Int)) (Value.plus? · (.int b)) = _ :=
    change_element ha hk rfl
  simp only [exec, he, place_index hi, Option.bind_eq_bind, Option.bind_some, hc]
  rfl

theorem exec_addAssign {a b : Int} (hn : σ.frames.value? name = some (.int a))
    (he : eval p σ e = some (.int b)) :
    exec p (.addAssign (.ident name) e) σ
      = some (.next, { σ with frames := σ.frames.put name (.int (a + b)) }) := by
  simp [exec, he, place, State.change, Frames.read, Frames.write, hn, Value.plus?]

theorem exec_pushBack {k : Nat} {items row : List (Value Obj)} {i : Expr}
    (hi : eval p σ i = some (.int k)) (ha : σ.frames.value? name = some (.array items))
    (hk : items[k]? = some (.array row)) (he : eval p σ e = some v) :
    exec p (.expr (.method (.index (.ident name) i) "push_back" [e])) σ
      = some (.next,
        { σ with frames := σ.frames.put name (.array (items.set k (.array (row ++ [v])))) }) := by
  have hc : σ.change (name, some (k : Int)) (Value.append? [v]) = _ := change_element ha hk rfl
  simp only [exec, Expr.method, perform, he, place_index hi, Option.bind_eq_bind,
    Option.bind_some, hc]
  rfl

/-- A row of one array of vectors is added to a row of another. -/
theorem exec_insert {other : String} {k : Nat} {items items' row row' : List (Value Obj)}
    {i : Expr} (hi : eval p σ i = some (.int k)) (ha : σ.frames.value? name = some (.array items))
    (hk : items[k]? = some (.array row)) (hb : σ.frames.value? other = some (.array items'))
    (hk' : items'[k]? = some (.array row')) :
    exec p (.expr (.method (.index (.ident name) i) "insert"
        [.method (.index (.ident name) i) "end" [], .method (.index (.ident other) i) "begin" [],
          .method (.index (.ident other) i) "end" []])) σ
      = some (.next,
        { σ with frames := σ.frames.put name (.array (items.set k (.array (row ++ row')))) }) := by
  have hc : σ.change (name, some (k : Int)) (Value.append? row') = _ := change_element ha hk rfl
  have hread : σ.frames.read (other, some (k : Int)) = some (.array row') := by
    simp [Frames.read, hb, Value.element?, hk']
  simp only [exec, Expr.method, perform, place_index hi, Option.bind_eq_bind, Option.bind_some,
    and_self, if_true, hread, hc]
  rfl

theorem outputs_stream (name : String) (items : List Expr) :
    outputs (.stream (.ident name :: items)) = some (name, items) := by
  induction items using List.reverseRecOn with
  | nil => rfl
  | append_singleton items last ih =>
    simp only [Expr.stream] at ih
    simp [Expr.stream, outputs, ih]

/-- A stream output adds its items to what was written before. -/
theorem exec_output {items : List Expr} {old vs : List (Value Obj)} (hne : items ≠ [])
    (hn : σ.frames.value? name = some (.array old)) (he : evalAll p σ items = some vs) :
    exec p (.expr (.stream (.ident name :: items))) σ
      = some (.next, { σ with frames := σ.frames.put name (.array (old ++ vs)) }) := by
  -- with at least one item, the whole is an output of the last item
  obtain ⟨l, r, hshl⟩ : ∃ l r, Expr.stream (.ident name :: items) = .binary .shl l r := by
    refine ⟨items.dropLast.foldl (.binary .shl) (.ident name), items.getLast hne, ?_⟩
    conv_lhs => rw [← List.dropLast_append_getLast hne]
    simp [Expr.stream]
  have hout := outputs_stream name items
  rw [hshl] at hout ⊢
  simp [exec, perform, hout, he, State.change, Frames.read, Frames.write, hn, Value.append?]

/-- Statements that run to their end. -/
def Does (p : Platform Obj) (ss : List Stmt) (σ σ' : State Obj) : Prop :=
  execAll p ss σ = some (.next, σ')

theorem Does.nil : Does p [] σ σ := rfl

theorem Does.cons (hs : exec p s σ = some (.next, σ₁)) (hr : Does p rest σ₁ σ₂) :
    Does p (s :: rest) σ σ₂ := by
  unfold Does at hr ⊢
  simp [execAll, hs, hr]

theorem Does.single (hs : exec p s σ = some (.next, σ₁)) : Does p [s] σ σ₁ :=
  .cons hs .nil

theorem execAll_append (h : Does p first σ σ₁) : execAll p (first ++ rest) σ = execAll p rest σ₁ := by
  induction first generalizing σ with
  | nil =>
    obtain rfl : σ = σ₁ := by simpa [Does, execAll] using h
    rfl
  | cons s first ih =>
    unfold Does at h
    simp only [execAll] at h
    obtain ⟨⟨flow, σ'⟩, hs, h⟩ := Option.bind_eq_some_iff.1 h
    by_cases hf : flow = .next
    · simp only [hf, if_true] at h
      simp [execAll, hs, hf, ih h]
    · simp [hf] at h

theorem Does.append (h : Does p first σ σ₁) (hr : Does p rest σ₁ σ₂) :
    Does p (first ++ rest) σ σ₂ := by
  unfold Does
  rw [execAll_append h, hr]

theorem block_eq_some {f g : Frame Obj} {fs : Frames Obj} {flow : Flow}
    {run : State Obj → Option (Flow × State Obj)} {now : Int} {trace : List (Event Obj)}
    (h : run { σ with frames := f :: σ.frames } = some (flow, ⟨g :: fs, now, trace⟩)) :
    block f run σ = some (flow, ⟨fs, now, trace⟩) := by
  simp [block, h]

theorem exec_forRange {bound : Expr} {m : Int} (h : eval p σ bound = some (.int m)) :
    exec p (.forRange var bound body) σ
      = forEach (iteration var (execAll p body)) (List.range m.toNat) σ := by
  simp only [exec, h]
  rfl

/-- **An invariant of the iterations is one of the loop.** It may speak of the iterations
so far. -/
theorem forEach_spec (run : Nat → State Obj → Option (Flow × State Obj)) (ks : List Nat)
    (Inv : List Nat → State Obj → Prop) (h₀ : Inv [] σ)
    (hstep : ∀ before k after τ, ks = before ++ k :: after → Inv before τ →
      ∃ flow τ', run k τ = some (flow, τ') ∧ flow ≠ .leave ∧ Inv (before ++ [k]) τ') :
    ∃ σ', forEach run ks σ = some (.next, σ') ∧ Inv ks σ' := by
  -- what is left to run, for any part already done
  have key : ∀ after before τ, ks = before ++ after → Inv before τ →
      ∃ σ', forEach run after τ = some (.next, σ') ∧ Inv ks σ' := by
    intro after
    induction after with
    | nil =>
      intro before τ hks hi
      exact ⟨τ, rfl, by simpa [hks] using hi⟩
    | cons k after ih =>
      intro before τ hks hi
      obtain ⟨flow, τ', hrun, hflow, hi'⟩ := hstep before k after τ hks hi
      obtain ⟨σ', hrest, hend⟩ := ih (before ++ [k]) τ' (by simp [hks]) hi'
      exact ⟨σ', by simp [forEach, hrun, hflow, hrest], hend⟩
  exact key ks [] σ rfl h₀

/-- The next of the first numbers is how many there were before. -/
theorem eq_length_of_range_eq {m k : Nat} {before after : List Nat}
    (h : List.range m = before ++ k :: after) : k = before.length ∧ k < m := by
  have hget : (List.range m)[before.length]? = some k := by simp [h]
  obtain ⟨hlen, heq⟩ := List.getElem?_eq_some_iff.1 hget
  rw [List.length_range] at hlen
  rw [List.getElem_range] at heq
  omega

/-- A loop whose state after each iteration is known. -/
theorem forEach_range (run : Nat → State Obj → Option (Flow × State Obj)) (m : Nat)
    (after : Nat → State Obj)
    (hstep : ∀ k < m, run k (after k) = some (.next, after (k + 1))) :
    forEach run (List.range m) (after 0) = some (.next, after m) := by
  obtain ⟨σ', hrun, hσ⟩ := forEach_spec run (List.range m)
    (fun before τ => τ = after before.length) (show after 0 = after ([] : List Nat).length from rfl)
    (by
      rintro before k rest τ hks rfl
      obtain ⟨rfl, hlt⟩ := eq_length_of_range_eq hks
      exact ⟨.next, _, hstep _ hlt, by decide, by simp⟩)
  rw [hrun, hσ, List.length_range]

end Statements

end SparseTiling.Code
