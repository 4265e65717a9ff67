import SparseTiling.Proofs.Json.Scalars

/-!
# Lists and records read back

Lists and records are written alike: brackets, and between them texts with commas and
line breaks. A reader that takes one text after another takes all of them.

* `enclosedText`: what is written after an opening bracket.
* `Takes`, `run_enclosed`: items one after another, up to the closing bracket.
* `reads_list`: lists.
* `Fills`, `reads_record`: records that have all their fields, in their order.
-/

namespace SparseTiling.Json

open Reader

variable {α β σ : Type} {rest gap : List Char}

/-! ## Between brackets -/

/-- Texts behind the first one, each after a comma on a line of its own. -/
def further (level : Nat) (texts : List (List Char)) : List Char :=
  texts.flatMap fun t => ',' :: newLine level ++ t

/-- What is written after an opening bracket. -/
def enclosedText (close : Char) (level : Nat) : List (List Char) → List Char
  | [] => [close]
  | t :: ts => newLine (level + 1) ++ t ++ further (level + 1) ts ++ newLine level ++ [close]

/-- The text of a member of a record. -/
def memberText (level : Nat) (m : String × Json) : List Char :=
  quote m.1 ++ ':' :: ' ' :: m.2.write level

theorem writeItems_eq (level : Nat) (items : List Json) :
    writeItems level items = further level (items.map (write level)) := by
  induction items with
  | nil => rfl
  | cons item items ih => simp [writeItems, further, ih]

theorem writeMembers_eq (level : Nat) (members : List (String × Json)) :
    writeMembers level members = further level (members.map (memberText level)) := by
  induction members with
  | nil => rfl
  | cons m members ih =>
    obtain ⟨key, value⟩ := m
    simp [writeMembers, further, memberText, ih]

theorem write_list (level : Nat) (items : List Json) :
    (Json.list items).write level =
      '[' :: enclosedText ']' level (items.map (write (level + 1))) := by
  cases items with
  | nil => rfl
  | cons item items => simp [write, enclosedText, writeItems_eq]

theorem write_record (level : Nat) (members : List (String × Json)) :
    (Json.record members).write level =
      '\x7b' :: enclosedText '\x7d' level (members.map (memberText (level + 1))) := by
  cases members with
  | nil => rfl
  | cons m members =>
    obtain ⟨key, value⟩ := m
    simp [write, enclosedText, memberText, writeMembers_eq]

/-- A reader of items takes texts one after another and goes from one state to another. -/
inductive Takes (item : σ → Reader σ) : σ → List (List Char) → σ → Prop
  | nil (x : σ) : Takes item x [] x
  | cons {x y z : σ} {t : List Char} {ts : List (List Char)} :
    Reads (item x) t y → Takes item y ts z → Takes item x (t :: ts) z

/-- The marks that close lists and records. -/
def Closes (c : Char) : Prop := c = ']' ∨ c = '\x7d'

theorem Closes.isSpace_eq {c : Char} (h : Closes c) : isSpace c = false := by
  rcases h with rfl | rfl <;> rfl

theorem Closes.ne_comma {c : Char} (h : Closes c) : ',' ≠ c := by
  rcases h with rfl | rfl <;> decide

theorem Opens.ne_close {c d : Char} (h : Opens c) (hd : Closes d) : c ≠ d := by
  rcases hd with rfl | rfl
  · exact h.2.1
  · exact h.2.2

theorem enclosedRun_close {item : σ → Reader σ} {close : Char} {x y : σ} {s u : List Char}
    (hclose : Closes close) (hgap : gap.all isSpace = true)
    (h : (item x).run s = .ok (y, gap ++ close :: u)) :
    enclosedRun close item x s = .ok (y, u) := by
  rw [enclosedRun]
  split
  · next he => simp [h] at he
  · next y' t he =>
    obtain ⟨rfl, rfl⟩ : y = y' ∧ gap ++ close :: u = t := by simpa [h] using he
    split
    · next hd => simp [dropWhile_gap hgap hclose.isSpace_eq] at hd
    · next c v hd =>
      obtain ⟨rfl, rfl⟩ : close = c ∧ u = v := by
        simpa [dropWhile_gap hgap hclose.isSpace_eq] using hd
      simp

theorem enclosedRun_comma {item : σ → Reader σ} {close : Char} {x y : σ} {s u : List Char}
    (hclose : Closes close) (h : (item x).run s = .ok (y, ',' :: u)) :
    enclosedRun close item x s = enclosedRun close item y u := by
  have hspace : isSpace ',' = false := rfl
  rw [enclosedRun]
  split
  · next he => simp [h] at he
  · next y' t he =>
    obtain ⟨rfl, rfl⟩ : y = y' ∧ ',' :: u = t := by simpa [h] using he
    split
    · next hd => simp [hspace] at hd
    · next c v hd =>
      obtain ⟨rfl, rfl⟩ : ',' = c ∧ u = v := by simpa [hspace] using hd
      simp [hclose.ne_comma]

/-- Items are taken up to the closing bracket. -/
theorem enclosedRun_takes {item : σ → Reader σ} {close : Char} (level : Nat) {x y z : σ}
    {t : List Char} {ts : List (List Char)} (hclose : Closes close) (hgap : gap.all isSpace = true)
    (hfirst : Reads (item x) t y) (h : Takes item y ts z) (rest : List Char) :
    enclosedRun close item x (gap ++ t ++ further (level + 1) ts ++ newLine level ++ close :: rest) =
      .ok (z, rest) := by
  -- the first text stays outside the induction: only it comes without a comma
  induction h generalizing x t gap with
  | nil y =>
    refine enclosedRun_close hclose (all_isSpace_newLine level) ?_
    have hrun := hfirst.run gap (newLine level ++ close :: rest) hgap (follows_newLine level _)
    simpa [further] using hrun
  | @cons y y' z t' ts hnext _ ih =>
    have hrun := hfirst.run gap
      (',' :: (newLine (level + 1) ++ t' ++ further (level + 1) ts ++ newLine level ++
        close :: rest)) hgap (follows_comma _)
    have hstep := enclosedRun_comma hclose hrun
    rw [ih (all_isSpace_newLine (level + 1)) hnext] at hstep
    rw [← hstep]
    simp [further]

/-- **Texts between brackets are taken one after another.** -/
theorem run_enclosed {item : σ → Reader σ} {close : Char} (level : Nat) {x z : σ}
    {ts : List (List Char)} (hclose : Closes close) (h : Takes item x ts z) (rest : List Char) :
    (enclosed close item x).run (enclosedText close level ts ++ rest) = .ok (z, rest) := by
  cases h with
  | nil => simp [enclosed, enclosedText, hclose.isSpace_eq]
  | @cons x y z t ts hfirst h =>
    obtain ⟨c, s, htext, hc⟩ := hfirst.opens
    have hrun := enclosedRun_takes level hclose List.all_nil hfirst h rest
    have hdrop : (enclosedText close level (t :: ts) ++ rest).dropWhile isSpace =
        c :: (s ++ further (level + 1) ts ++ newLine level ++ close :: rest) := by
      have hgap := dropWhile_gap
        (s := s ++ further (level + 1) ts ++ newLine level ++ close :: rest)
        (all_isSpace_newLine (level + 1)) hc.1
      rw [← hgap]
      simp [enclosedText, htext]
    simp only [enclosed, hdrop, hc.ne_close hclose, if_false]
    simpa [htext] using hrun

/-! ## Lists -/

theorem takes_items {r : Reader β} {f : α → Json} {g : α → β} (level : Nat) {xs : List α}
    (h : ∀ x ∈ xs, ReadsAs r (f x) (g x)) (taken : List β) :
    Takes (fun ys => do return (← r) :: ys) taken ((xs.map f).map (write level))
      ((xs.map g).reverse ++ taken) := by
  induction xs generalizing taken with
  | nil => exact .nil taken
  | cons x xs ih =>
    have hfirst := (h x List.mem_cons_self).map (· :: taken) level
    have hrest := ih (fun y hy => h y (List.mem_cons_of_mem x hy)) (g x :: taken)
    simp only [List.map_cons, List.reverse_cons, List.append_assoc, List.singleton_append]
    exact .cons hfirst hrest

/-- **Lists are read back** item by item. -/
theorem reads_list {r : Reader β} {f : α → Json} {g : α → β} {xs : List α}
    (h : ∀ x ∈ xs, ReadsAs r (f x) (g x)) : ReadsAs r.list (.list (xs.map f)) (xs.map g) := by
  intro level
  refine reads_of_start (write_list level _) ⟨rfl, by decide, by decide⟩
    fun gap rest hgap _ => ?_
  have hstart : ∀ s, (startFrom '[').run s = .ok (.list, s) := fun s => rfl
  have hrun := run_enclosed level (.inl rfl) (takes_items (level + 1) h []) rest
  simp only [Reader.list, run_bind, run_start hgap (show isSpace '[' = false from rfl), hstart,
    Except.bind, hrun, run_pure]
  simp

/-! ## Records -/

/-- The members that are written fill the fields of a record, one after another. -/
inductive Fills : List (Field σ) → List (String × Json) → σ → σ → Prop
  | nil (x : σ) : Fills [] [] x x
  | cons {f : Field σ} {fields : List (Field σ)} {value : Json} {members : List (String × Json)}
    {set : σ → σ} {x y : σ} : ReadsAs f.set value set → Fills fields members (set x) y →
    Fills (f :: fields) ((f.key, value) :: members) x y

theorem Fills.needed {key : String} {r : Reader α} {set : σ → α → σ} {a : α} {value : Json}
    {fields : List (Field σ)} {members : List (String × Json)} {x y : σ} (h : ReadsAs r value a)
    (hrest : Fills fields members (set x a) y) :
    Fills (.needed key r set :: fields) ((key, value) :: members) x y :=
  Fills.cons (f := .needed key r set) (h.map fun a built => set built a) hrest

theorem Fills.defaulted {key : String} {r : Reader α} {set : σ → α → σ} {a : α} {value : Json}
    {fields : List (Field σ)} {members : List (String × Json)} {x y : σ} (h : ReadsAs r value a)
    (hrest : Fills fields members (set x a) y) :
    Fills (.defaulted key r set :: fields) ((key, value) :: members) x y :=
  Fills.cons (f := .defaulted key r set) (h.map fun a built => set built a) hrest

/-- A field that was not read yet is filled. -/
theorem reads_member {fields : List (Field σ)} {field : Field σ} {value : Json} {set : σ → σ}
    {seen : List String} {x : σ} {level : Nat}
    (hfind : (fields.find? fun f => f.key = field.key) = some field) (hseen : field.key ∉ seen)
    (h : ReadsAs field.set value set) :
    Reads (member fields (seen, x)) (memberText level (field.key, value))
      (field.key :: seen, set x) := by
  refine reads_of_start (c := '"')
    (s := field.key.toList.flatMap escape ++ '"' :: ':' :: ' ' :: value.write level)
    (by simp [memberText, quote]) ⟨rfl, by decide, by decide⟩ fun gap rest hgap hrest => ?_
  have hquote := run_mark (c := '"')
    (s := field.key.toList.flatMap escape ++ '"' :: ':' :: (' ' :: (value.write level ++ rest)))
    hgap rfl
  have htext := run_text field.key (':' :: (' ' :: (value.write level ++ rest)))
  have hcolon : (mark ':').run ([] ++ ':' :: ' ' :: (value.write level ++ rest)) =
      .ok ((), ' ' :: (value.write level ++ rest)) := run_mark List.all_nil rfl
  have hvalue := (h level).run [' '] rest rfl hrest
  simp only [List.append_assoc, List.cons_append, List.nil_append] at *
  simp only [member, run_bind, hquote, htext, Except.bind, hfind, hseen, if_false, hcolon, hvalue,
    run_pure]

theorem find?_key {before after : List (Field σ)} {field : Field σ}
    (h : ((before ++ field :: after).map (·.key)).Nodup) :
    ((before ++ field :: after).find? fun f => f.key = field.key) = some field := by
  rw [List.find?_append]
  have hnone : (before.find? fun f => f.key = field.key) = none := by
    rw [List.find?_eq_none]
    intro f hf he
    rw [List.map_append, List.map_cons] at h
    have hne := (List.nodup_append.1 h).2.2 f.key (List.mem_map_of_mem hf) field.key
      List.mem_cons_self
    exact hne (by simpa using he)
  simp [hnone]

theorem takes_members (level : Nat) (before : List (Field σ)) {fields : List (Field σ)}
    {members : List (String × Json)} {x y : σ} (h : Fills fields members x y)
    (hkeys : ((before ++ fields).map (·.key)).Nodup) :
    Takes (member (before ++ fields)) ((before.map (·.key)).reverse, x)
      (members.map (memberText level)) (((before ++ fields).map (·.key)).reverse, y) := by
  -- each step moves one field from those to come to those whose keys were seen
  induction h generalizing before with
  | nil x => simpa using Takes.nil _
  | @cons field fields value members set x y hfield _ ih =>
    have hsplit : before ++ field :: fields = (before ++ [field]) ++ fields := by simp
    have hseen : field.key ∉ (before.map (·.key)).reverse := by
      intro hmem
      rw [List.map_append, List.map_cons] at hkeys
      exact (List.nodup_append.1 hkeys).2.2 field.key (List.mem_reverse.1 hmem) field.key
        List.mem_cons_self rfl
    have hrest := ih (before ++ [field]) (hsplit ▸ hkeys)
    rw [← hsplit, List.map_append, List.reverse_append] at hrest
    exact .cons (reads_member (find?_key hkeys) hseen hfield) hrest

/-- **Records are read back** if all their fields are written, in their order. -/
theorem reads_record {fields : List (Field σ)} {members : List (String × Json)} {x y : σ}
    (h : Fills fields members x y) (hkeys : (fields.map (·.key)).Nodup) :
    ReadsAs (.record fields x) (.record members) y := by
  intro level
  refine reads_of_start (write_record level _) ⟨rfl, by decide, by decide⟩
    fun gap rest hgap _ => ?_
  have hstart : ∀ s, (startFrom '\x7b').run s = .ok (.record, s) := fun s => rfl
  have hrun := run_enclosed level (.inr rfl) (takes_members (level + 1) [] h hkeys) rest
  have hall : (fields.all fun field => !field.required || decide (field.key ∈
      ((fields.map (·.key)).reverse))) = true := by
    rw [List.all_eq_true]
    intro field hfield
    simp only [List.mem_reverse, List.mem_map_of_mem hfield, decide_true, Bool.or_true]
  simp only [Reader.record, run_bind, run_start hgap (show isSpace '\x7b' = false from rfl), hstart,
    Except.bind, keyed]
  simp only [List.nil_append, List.map_nil, List.reverse_nil] at hrun
  simp only [hrun, hall, if_true, run_pure]

/-- **A text that holds one written value is read as it.** -/
theorem read_render {r : Reader α} {value : Json} {x : α} (h : ReadsAs r value x) :
    r.read value.render = .ok x := by
  have hrun := (h 0).run [] [] rfl follows_nil
  rw [List.nil_append, List.append_nil] at hrun
  simp [Reader.read, render, hrun]

end SparseTiling.Json
