import SparseTiling.Json.Typed

/-!
# What readers give

A property of all values that a reader can give, whatever text it reads. It is found from
the parts of the reader: what every item keeps holds of a list or a record.

* `Reader.Yields`: all values of a reader have a property.
* `yields_enclosed`: what every item keeps holds after all of them.
* `yields_list`, `yields_record`: lists and records.
-/

namespace SparseTiling.Json.Reader

variable {α β σ : Type} {P : α → Prop} {Q : β → Prop}

/-- All values that a reader gives have a property. -/
def Yields (r : Reader α) (P : α → Prop) : Prop := ∀ s x t, r.run s = .ok (x, t) → P x

theorem yields_any (r : Reader α) : r.Yields fun _ => True := fun _ _ _ _ => trivial

theorem yields_pure {x : α} (h : P x) : (pure x : Reader α).Yields P := by
  intro s y t hrun
  obtain ⟨rfl, -⟩ : x = y ∧ s = t := by simpa using hrun
  exact h

theorem yields_fail (fault : Fault) : (fail fault : Reader α).Yields P := by
  intro s x t hrun
  simp [fail] at hrun

theorem yields_bind {r : Reader α} {f : α → Reader β} (hr : r.Yields P)
    (hf : ∀ x, P x → (f x).Yields Q) : (r >>= f).Yields Q := by
  intro s y t hrun
  rw [run_bind] at hrun
  cases h : r.run s with
  | error fault => simp [h, Except.bind] at hrun
  | ok p => exact hf p.1 (hr s p.1 p.2 h) p.2 y t (by simpa [h, Except.bind] using hrun)

/-- A reader that goes on with anything. -/
theorem yields_then {r : Reader α} {f : α → Reader β} (hf : ∀ x, (f x).Yields Q) :
    (r >>= f).Yields Q :=
  yields_bind (yields_any r) fun x _ => hf x

/-! ## Items between brackets -/

section

variable {I : σ → Prop} {item : σ → Reader σ}

theorem enclosedRun_yields (hitem : ∀ x, I x → (item x).Yields I) {close : Char} {x y : σ}
    {s t : List Char} (hx : I x) (h : enclosedRun close item x s = .ok (y, t)) : I y := by
  fun_induction enclosedRun close item x s with
  | case1 | case2 | case5 => simp at h
  | case3 x s y' t' hrun u hdrop =>
    obtain ⟨rfl, -⟩ : y' = y ∧ u = t := by simpa using h
    exact hitem x hx s y' t' hrun
  | case4 x s y' t' hrun u hne hdrop ih => exact ih (hitem x hx s y' t' hrun) h

/-- **What every item keeps holds after all of them.** -/
theorem yields_enclosed (hitem : ∀ x, I x → (item x).Yields I) (close : Char) {x : σ} (hx : I x) :
    (enclosed close item x).Yields I := by
  intro s y t h
  simp only [enclosed] at h
  split at h
  · simp at h
  · split at h
    · obtain ⟨rfl, -⟩ : x = y ∧ _ = t := by simpa using h
      exact hx
    · exact enclosedRun_yields hitem hx h

end

theorem yields_list {r : Reader α} (h : r.Yields P) : r.list.Yields fun xs => ∀ x ∈ xs, P x := by
  refine yields_then fun first => ?_
  cases first with
  | list =>
    refine yields_bind (P := fun xs => ∀ x ∈ xs, P x) (yields_enclosed ?_ ']' (by simp)) ?_
    · intro xs hxs
      refine yields_bind h fun x hx => yields_pure ?_
      exact List.forall_mem_cons.2 ⟨hx, hxs⟩
    · intro xs hxs
      exact yields_pure fun x hx => hxs x (List.mem_reverse.1 hx)
  | _ => exact yields_fail _

/-! ## Records -/

/-- A field keeps a property of the record under construction. -/
def Keeps (I : σ → Prop) (field : Field σ) : Prop := field.set.Yields fun set => ∀ x, I x → I (set x)

variable {I : σ → Prop} {fields : List (Field σ)}

theorem keeps_needed {key : String} {r : Reader α} {set : σ → α → σ} (hr : r.Yields P)
    (h : ∀ x a, P a → I x → I (set x a)) : Keeps I (.needed key r set) :=
  yields_bind hr fun a ha => yields_pure fun x hx => h x a ha hx

theorem keeps_defaulted {key : String} {r : Reader α} {set : σ → α → σ} (hr : r.Yields P)
    (h : ∀ x a, P a → I x → I (set x a)) : Keeps I (.defaulted key r set) :=
  yields_bind hr fun a ha => yields_pure fun x hx => h x a ha hx

theorem yields_member (h : ∀ field ∈ fields, Keeps I field) {state : List String × σ}
    (hx : I state.2) : (member fields state).Yields fun next => I next.2 := by
  refine yields_then fun _ => yields_then fun key => ?_
  -- members with unknown keys are passed over, and known keys are read once
  cases hfind : fields.find? fun field => field.key = key with
  | none => exact yields_then fun _ => yields_then fun _ => yields_pure hx
  | some field =>
    have hkeeps := h field (List.mem_of_find?_eq_some hfind)
    by_cases hseen : key ∈ state.1
    · simp only [hseen, if_true]
      exact yields_fail _
    · simp only [hseen, if_false]
      exact yields_then fun _ => yields_bind hkeeps fun set hset => yields_pure (hset state.2 hx)

theorem yields_keyed (h : ∀ field ∈ fields, Keeps I field) {x : σ} (hx : I x) :
    (keyed fields x).Yields I := by
  refine yields_bind (yields_enclosed (I := fun state => I state.2)
    (fun state hstate => yields_member h hstate) '\x7d' hx) fun state hstate => ?_
  show Reader.Yields (if _ then _ else _) I
  split
  · exact yields_pure hstate
  · exact yields_fail _

/-- The fields that are still to come are some of those of the record. -/
theorem yields_position {state : List (Field σ) × σ} (h : ∀ field ∈ state.1, Keeps I field)
    (hx : I state.2) :
    (position state).Yields fun next => (∀ field ∈ next.1, Keeps I field) ∧ I next.2 := by
  obtain ⟨fields, built⟩ := state
  cases fields with
  | nil => exact yields_fail _
  | cons field fields =>
    refine yields_bind (h field List.mem_cons_self) fun set hset => yields_pure ⟨?_, hset built hx⟩
    exact fun other hother => h other (List.mem_cons_of_mem field hother)

theorem yields_positional (h : ∀ field ∈ fields, Keeps I field) {x : σ} (hx : I x) :
    (positional fields x).Yields I := by
  refine yields_bind (yields_enclosed
    (I := fun state => (∀ field ∈ state.1, Keeps I field) ∧ I state.2)
    (fun state hstate => yields_position hstate.1 hstate.2) ']' ⟨h, hx⟩) fun state hstate => ?_
  show Reader.Yields (if _ then _ else _) I
  split
  · exact yields_pure hstate.2
  · exact yields_fail _

/-- **What every field keeps holds of the record.** -/
theorem yields_record (h : ∀ field ∈ fields, Keeps I field) {x : σ} (hx : I x) :
    (record fields x).Yields I := by
  refine yields_then fun first => ?_
  cases first with
  | record => exact yields_keyed h hx
  | list => exact yields_positional h hx
  | _ => exact yields_fail _

theorem yields_read {r : Reader α} (h : r.Yields P) {text : String} {x : α}
    (hread : r.read text = .ok x) : P x := by
  unfold read at hread
  cases hrun : r.run text.toList with
  | error fault => simp [hrun] at hread
  | ok p =>
    obtain ⟨y, rest⟩ := p
    simp only [hrun] at hread
    split at hread
    · obtain rfl := Except.ok.inj hread
      exact h text.toList y rest hrun
    · simp at hread

end SparseTiling.Json.Reader
