import Mathlib.Data.List.DropRight
import Mathlib.Tactic
import SparseTiling.Text.Blank

/-!
# Lines and their fragments

A fragment is cut into lines, and newlines at its ends and blanks at the ends of its lines are
lost. What is left is settled: a text made of such lines, with something on the first and on the
last of them, is cut into the same lines again.

* `split_eq_splitOn`: a text is cut as the library cuts lists.
* `split_lines`: a text is cut where its lines end.
* `unlines`: the text of lines.
* `Solid`, `Settled`: lines that end in a visible character, or are empty.
* `settled_fragmentLines`: all lines of a fragment are settled.
* `fragmentLines_lines`: settled lines are the lines of their text.
-/

namespace SparseTiling.Text

variable {l m : List Char} {lines : List (List Char)}

/-! ## Cutting a text at its newlines -/

/-- A text is cut as the library cuts lists. -/
theorem split_eq_splitOn (cs : List Char) : split cs = cs.splitOn '\n' := by
  induction cs with
  | nil => rfl
  | cons c cs ih =>
    rw [split, ih, List.splitOn_cons_eq_if_modifyHead]
    by_cases hc : c = '\n'
    · rw [if_pos hc, if_pos (beq_iff_eq.2 hc)]
    · obtain ⟨piece, pieces, h⟩ := List.exists_cons_of_ne_nil (List.splitOn_ne_nil '\n' cs)
      rw [if_neg hc, if_neg (mt beq_iff_eq.1 hc), h]
      rfl

theorem split_ne_nil (cs : List Char) : split cs ≠ [] := by
  rw [split_eq_splitOn]
  exact List.splitOn_ne_nil '\n' cs

theorem split_line (hl : '\n' ∉ l) : split l = [l] := by
  rw [split_eq_splitOn]
  exact List.splitOn_eq_singleton hl

/-- A line is cut off where it ends. -/
theorem split_append_newline (hl : '\n' ∉ l) (cs : List Char) :
    split (l ++ '\n' :: cs) = l :: split cs := by
  rw [split_eq_splitOn, split_eq_splitOn]
  exact List.splitOn_append_cons_self_of_not_mem hl cs

/-- What has no newline goes to the first piece. -/
theorem split_append (hl : '\n' ∉ l) {cs piece : List Char} {pieces : List (List Char)}
    (h : split cs = piece :: pieces) : split (l ++ cs) = (l ++ piece) :: pieces := by
  induction l with
  | nil => exact h
  | cons c l ih =>
    obtain ⟨hc, hl⟩ := not_or.1 (mt List.mem_cons.2 hl)
    rw [List.cons_append, split, if_neg (Ne.symm hc), ih hl]
    rfl

theorem newline_notMem_split (cs : List Char) : ∀ piece ∈ split cs, '\n' ∉ piece := by
  induction cs with
  | nil => simp [split]
  | cons c cs ih =>
    by_cases hc : c = '\n'
    · rw [split, if_pos hc]
      exact List.forall_mem_cons.2 ⟨List.not_mem_nil, ih⟩
    · obtain ⟨piece, pieces, h⟩ := List.exists_cons_of_ne_nil (split_ne_nil cs)
      have hone : '\n' ∉ [c] := by simpa using Ne.symm hc
      have hcons := split_append hone h
      rw [h, List.forall_mem_cons] at ih
      rw [List.singleton_append] at hcons
      rw [hcons, List.forall_mem_cons]
      exact ⟨by simp [Ne.symm hc, ih.1], ih.2⟩

/-- The pieces, each ended by a newline, are the text with one more newline. -/
theorem flatMap_split (cs : List Char) : (split cs).flatMap (· ++ ['\n']) = cs ++ ['\n'] := by
  have hended : ∀ pieces : List (List Char), pieces ≠ [] →
      pieces.flatMap (· ++ ['\n']) = ['\n'].intercalate pieces ++ ['\n'] := by
    intro pieces hne
    induction pieces with
    | nil => exact absurd rfl hne
    | cons piece pieces ih =>
      cases pieces with
      | nil => simp
      | cons next rest =>
        rw [List.flatMap_cons, ih (List.cons_ne_nil next rest), List.intercalate_cons_cons]
        simp
  rw [hended _ (split_ne_nil cs), split_eq_splitOn, List.intercalate_splitOn]

/-- **Lines that are ended one by one are cut apart again.** -/
theorem split_lines (hlines : ∀ l ∈ lines, '\n' ∉ l) (hm : '\n' ∉ m) :
    split (lines.flatMap (· ++ ['\n']) ++ m) = lines ++ [m] := by
  induction lines with
  | nil => exact split_line hm
  | cons l lines ih =>
    rw [List.forall_mem_cons] at hlines
    have hcut := split_append_newline hlines.1 (lines.flatMap (· ++ ['\n']) ++ m)
    rw [ih hlines.2] at hcut
    simpa using hcut

/-- Lines one after another, each ended by a newline. -/
def unlines (lines : List String) : String := String.join (lines.map (· ++ "\n"))

@[simp] theorem unlines_nil : unlines [] = "" := rfl

@[simp] theorem unlines_cons (line : String) (lines : List String) :
    unlines (line :: lines) = line ++ "\n" ++ unlines lines := by
  simp [unlines]

@[simp] theorem unlines_append (first rest : List String) :
    unlines (first ++ rest) = unlines first ++ unlines rest := by
  simp [unlines]

theorem unlines_ofList (lines : List (List Char)) :
    unlines (lines.map String.ofList) = String.ofList (lines.flatMap (· ++ ['\n'])) := by
  rw [← String.toList_inj]
  simp [unlines, String.toList_join, List.flatMap_map]

/-! ## Settled lines -/

/-- A line that ends in a visible character. -/
structure Solid (l : List Char) : Prop where
  line : '\n' ∉ l
  ends : ∃ front c, l = front ++ [c] ∧ isBlank c = false

theorem solid_iff : Solid l ↔ '\n' ∉ l ∧ (l.getLast?.any fun c => !isBlank c) = true := by
  rw [Option.any_eq_true]
  simp only [List.getLast?_eq_some_iff, Bool.not_eq_true']
  constructor
  · rintro ⟨hline, front, c, hl, hc⟩
    exact ⟨hline, c, ⟨front, hl⟩, hc⟩
  · rintro ⟨hline, c, ⟨front, hl⟩, hc⟩
    exact ⟨hline, front, c, hl, hc⟩

instance : DecidablePred Solid := fun _ => decidable_of_iff _ solid_iff.symm

/-- A line without blanks at its end. -/
def Settled (l : List Char) : Prop := l = [] ∨ Solid l

theorem Solid.ne_nil (h : Solid l) : l ≠ [] := by
  obtain ⟨front, c, rfl, -⟩ := h.ends
  simp

theorem Solid.append (hm : '\n' ∉ m) (h : Solid l) : Solid (m ++ l) := by
  obtain ⟨front, c, hl, hc⟩ := h.ends
  refine ⟨?_, m ++ front, c, by rw [hl, List.append_assoc], hc⟩
  simpa [hm] using h.line

theorem solid_singleton {c : Char} (hc : isBlank c = false) : Solid [c] := by
  have hnewline : '\n' ≠ c := by
    rintro rfl
    exact absurd hc (by decide)
  exact ⟨by simpa using hnewline, [], c, rfl, hc⟩

theorem solid_of_visible (hne : l ≠ []) (h : ∀ c ∈ l, isBlank c = false) : Solid l := by
  have hline : '\n' ∉ l := fun hmem => absurd (h _ hmem) (by decide)
  exact ⟨hline, _, _, (List.dropLast_append_getLast hne).symm, h _ (List.getLast_mem hne)⟩

/-- A text that is ended by a visible character. -/
theorem solid_ended {s ending : String} {c : Char} (hs : '\n' ∉ s.toList)
    (hending : ending.toList = [c]) (hc : isBlank c = false) : Solid (s ++ ending).toList := by
  rw [String.toList_append, hending]
  exact (solid_singleton hc).append hs

theorem Settled.line (h : Settled l) : '\n' ∉ l := by
  rcases h with rfl | h
  · exact List.not_mem_nil
  · exact h.line

/-- Settled lines have nothing left to trim. -/
theorem Settled.trimEnd_eq (h : Settled l) : trimEnd l = l := by
  rcases h with rfl | h
  · rfl
  · obtain ⟨front, c, rfl, hc⟩ := h.ends
    exact List.rdropWhile_concat_neg isBlank front c (by simp [hc])

theorem settled_trimEnd (hl : '\n' ∉ l) : Settled (trimEnd l) := by
  by_cases hnil : trimEnd l = []
  · exact .inl hnil
  · have hfront : trimEnd l <+: l := List.rdropWhile_prefix isBlank l
    have hlast := List.rdropWhile_eq_self_iff.1 (List.rdropWhile_idempotent isBlank l) hnil
    exact .inr ⟨fun hmem => hl (hfront.subset hmem), _, _,
      (List.dropLast_append_getLast hnil).symm, Bool.eq_false_of_not_eq_true hlast⟩

/-- A text in front of lines that are solid joins the first of them. -/
theorem solid_split_append (hl : '\n' ∉ l) (hm : ∀ piece ∈ split m, Solid piece) :
    ∀ piece ∈ split (l ++ m), Solid piece := by
  obtain ⟨piece, pieces, h⟩ := List.exists_cons_of_ne_nil (split_ne_nil m)
  rw [h, List.forall_mem_cons] at hm
  rw [split_append hl h]
  exact List.forall_mem_cons.2 ⟨hm.1.append hl, hm.2⟩

theorem solid_split_line (hl : Solid l) (hm : ∀ piece ∈ split m, Solid piece) :
    ∀ piece ∈ split (l ++ '\n' :: m), Solid piece := by
  rw [split_append_newline hl.line]
  exact List.forall_mem_cons.2 ⟨hl, hm⟩

/-! ## Fragments -/

/-- **Every line of a fragment is settled.** -/
theorem settled_fragmentLines (text : String) :
    ∀ line ∈ fragmentLines text, Settled line.toList := by
  unfold fragmentLines
  split
  · exact fun _ hline => absurd hline List.not_mem_nil
  · rw [List.forall_mem_map]
    intro piece hpiece
    rw [String.toList_ofList]
    exact settled_trimEnd (newline_notMem_split _ piece hpiece)

theorem trimNewlines_eq {first last : Char} {cs : List Char} (ds : List Char)
    (hsame : first :: cs = ds ++ [last]) (hfirst : first ≠ '\n') (hlast : last ≠ '\n') :
    trimNewlines (first :: cs ++ ['\n']) = first :: cs := by
  have hdrop : (first :: cs ++ ['\n']).dropWhile (· == '\n') = first :: cs ++ ['\n'] :=
    List.dropWhile_cons_of_neg (by simpa using hfirst)
  have hend : dropEndWhile (· == '\n') (ds ++ [last]) = ds ++ [last] :=
    List.rdropWhile_concat_neg (· == '\n') ds last (by simpa using hlast)
  rw [trimNewlines, hdrop]
  calc dropEndWhile (· == '\n') (first :: cs ++ ['\n'])
      = dropEndWhile (· == '\n') (first :: cs) :=
        List.rdropWhile_concat_pos (· == '\n') (first :: cs) '\n' rfl
    _ = first :: cs := by rw [hsame, hend]

/-- With something on the first and on the last line, only the last newline is at an end. -/
theorem trimNewlines_lines (hlines : ∀ l ∈ lines, '\n' ∉ l) (hm : '\n' ∉ m) (hne : m ≠ [])
    (hfirst : ∀ l ∈ lines.head?, l ≠ []) :
    trimNewlines (lines.flatMap (· ++ ['\n']) ++ m ++ ['\n']) =
      lines.flatMap (· ++ ['\n']) ++ m := by
  obtain ⟨first, cs, hcs, hstart⟩ : ∃ first cs,
      lines.flatMap (· ++ ['\n']) ++ m = first :: cs ∧ first ≠ '\n' := by
    cases lines with
    | nil =>
      obtain ⟨first, cs, rfl⟩ := List.exists_cons_of_ne_nil hne
      exact ⟨first, cs, rfl, Ne.symm (not_or.1 (mt List.mem_cons.2 hm)).1⟩
    | cons l lines =>
      obtain ⟨first, cs, rfl⟩ := List.exists_cons_of_ne_nil (hfirst l rfl)
      have hl := hlines _ List.mem_cons_self
      exact ⟨first, _, rfl, Ne.symm (not_or.1 (mt List.mem_cons.2 hl)).1⟩
  obtain ⟨ds, last, rfl⟩ : ∃ ds last, m = ds ++ [last] :=
    ⟨_, _, (List.dropLast_append_getLast hne).symm⟩
  have hend : last ≠ '\n' := by
    rintro rfl
    exact hm (by simp)
  rw [hcs]
  refine trimNewlines_eq (lines.flatMap (· ++ ['\n']) ++ ds) ?_ hstart hend
  rw [← hcs, List.append_assoc]

/-- **Settled lines are the lines of their text,** if the first and the last of them are not
empty. -/
theorem fragmentLines_lines (hlines : ∀ l ∈ lines, Settled l) (hfirst : ∀ l ∈ lines.head?, l ≠ [])
    (hlast : ∀ l ∈ lines.getLast?, l ≠ []) :
    fragmentLines (String.ofList (lines.flatMap (· ++ ['\n']))) = lines.map String.ofList := by
  induction lines using List.reverseRecOn with
  | nil => rfl
  | append_singleton front m _ =>
    have hline : ∀ l ∈ front ++ [m], '\n' ∉ l := fun l hl => (hlines l hl).line
    rw [List.forall_mem_append, List.forall_mem_singleton] at hline
    have hne : m ≠ [] := hlast m (by simp)
    have htrim : trimNewlines ((front ++ [m]).flatMap (· ++ ['\n'])) =
        front.flatMap (· ++ ['\n']) ++ m := by
      rw [List.flatMap_append, List.flatMap_singleton, ← List.append_assoc]
      refine trimNewlines_lines hline.1 hline.2 hne fun l hl => hfirst l ?_
      simp [Option.mem_def.1 hl]
    obtain ⟨first, cs, hcs⟩ : ∃ first cs, front.flatMap (· ++ ['\n']) ++ m = first :: cs :=
      List.exists_cons_of_ne_nil (by simp [hne])
    rw [fragmentLines, String.toList_ofList, htrim, hcs]
    change (split (first :: cs)).map _ = _
    rw [← hcs, split_lines hline.1 hline.2]
    refine List.map_congr_left fun l hl => ?_
    rw [(hlines l hl).trimEnd_eq]

end SparseTiling.Text
