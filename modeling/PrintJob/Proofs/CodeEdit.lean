/-
# Code does not matter to what comments say

All that is taken from comments is looked for behind a semicolon, so the part of a line in
front of the first one, where the code stands, does not matter: neither to the declared facts
nor to the layer marks. Only the flavor follows the first *colon* of the line, and there the
part in front must not have a colon either.

A `CodeEdit` replaces the part of a line in front of its first semicolon. Texts whose lines
differ in such edits only have the same facts and the same number of layer marks
(`comment_data_ignore_code`).
-/
import Mathlib.Data.List.Forall2
import PrintJob.LayerMark
import PrintJob.Proofs.LastDeclaration
import PrintJob.Proofs.TextRows

namespace PrintJob

/-! ## One line -/

section OneLine

variable {code : List Char} (h : ';' ∉ code) (comment : List Char)

include h

theorem commentOf_code : commentOf (code ++ ';' :: comment) = some comment := by
  rw [commentOf, afterFirstChar_append h]
  rfl

theorem layerMarks_code : layerMarks (code ++ ';' :: comment) = layerMarks (';' :: comment) := by
  have hcomment : commentOf (code ++ ';' :: comment) = commentOf (';' :: comment) :=
    commentOf_code h comment
  rw [layerMarks, layerMarks, hasLayerTag, hasLayerMention, hcomment, hasLayerTag,
    hasLayerMention]

namespace Declaration

theorem time_code : time (code ++ ';' :: comment) = time (';' :: comment) := by
  rw [time, time, afterFirst_append (by decide) h]

theorem printingTime_code :
    printingTime (code ++ ';' :: comment) = printingTime (';' :: comment) := by
  rw [printingTime, printingTime, afterCaseless_append (by decide) (by decide) h]

theorem filamentUsed_code :
    filamentUsed (code ++ ';' :: comment) = filamentUsed (';' :: comment) := by
  rw [filamentUsed, filamentUsed, afterCaseless_append (by decide) (by decide) h]

theorem layerHeight_code : layerHeight (code ++ ';' :: comment) = layerHeight (';' :: comment) := by
  rw [layerHeight, layerHeight, afterCaseless_append (by decide) (by decide) h]

/-- The flavor stands behind the first colon of the line, which the code could have. -/
theorem flavor_code (hcolon : ':' ∉ code) :
    flavor (code ++ ';' :: comment) = flavor (';' :: comment) := by
  rw [flavor, flavor, afterFirst_append (by decide) h, afterFirstChar_append hcolon]

end Declaration

end OneLine

/-! ## Edits of code -/

/-- The lines are the same, or they differ only in the parts in front of their first
semicolon. These parts have none of the characters that are banned in addition. -/
inductive CodeEdit (banned : List Char) : List Char → List Char → Prop
  | refl (line : List Char) : CodeEdit banned line line
  | code (code code' comment : List Char) (h : (';' :: banned).Disjoint code)
      (h' : (';' :: banned).Disjoint code') :
      CodeEdit banned (code ++ ';' :: comment) (code' ++ ';' :: comment)

namespace CodeEdit

variable {banned a b : List Char}

/-- What does not depend on the part in front of the first semicolon is the same on both
lines. -/
theorem congr {β : Type} {f : List Char → β} (h : CodeEdit banned a b)
    (hf : ∀ code comment, (';' :: banned).Disjoint code →
      f (code ++ ';' :: comment) = f (';' :: comment)) : f a = f b := by
  cases h with
  | refl => rfl
  | code code code' comment h h' => rw [hf code comment h, hf code' comment h']

/-- Nothing in front of a semicolon is dropped with a carriage return. -/
theorem dropReturn_code (code comment : List Char) :
    dropReturn (code ++ ';' :: comment) = code ++ ';' :: dropReturn comment := by
  induction code with
  | nil =>
    rw [List.nil_append, dropReturn, if_neg (fun hboth => absurd hboth.1 (by decide))]
    rfl
  | cons c cs ih =>
    have hne : cs ++ ';' :: comment ≠ [] :=
      List.append_ne_nil_of_right_ne_nil cs (List.cons_ne_nil _ _)
    rw [List.cons_append, dropReturn, if_neg (fun hboth => hne hboth.2), ih]
    rfl

theorem dropReturn (h : CodeEdit banned a b) : CodeEdit banned (dropReturn a) (dropReturn b) := by
  cases h with
  | refl => exact .refl _
  | code code code' comment h h' =>
    rw [dropReturn_code, dropReturn_code]
    exact .code code code' _ h h'

/-- A line with a semicolon is not empty, whatever is put in front of it. -/
theorem eq_nil_iff (h : CodeEdit banned a b) : a = [] ↔ b = [] := by
  cases h with
  | refl => exact Iff.rfl
  | code code code' comment h h' => simp

end CodeEdit

/-- Edits of rows are edits of lines. -/
theorem forall₂_lines {banned a b : List Char}
    (h : List.Forall₂ (CodeEdit banned) (a.splitOn '\n') (b.splitOn '\n')) :
    List.Forall₂ (CodeEdit banned) (lines a) (lines b) := by
  induction a using rowInduction generalizing b with
  | last row hrow =>
    rw [List.splitOn_eq_singleton hrow] at h
    induction b using rowInduction with
    | last row' hrow' =>
      rw [List.splitOn_eq_singleton hrow'] at h
      have hedit : CodeEdit banned row row' := (List.forall₂_cons.mp h).1
      by_cases hempty : row = []
      · rw [hempty, hedit.eq_nil_iff.mp hempty]
        exact .nil
      · rw [lines_row hrow hempty, lines_row hrow' (mt hedit.eq_nil_iff.mpr hempty)]
        exact .cons hedit .nil
    | row row' rest' hrow' _ =>
      rw [List.splitOn_append_cons_self_of_not_mem hrow'] at h
      have hnil := List.forall₂_nil_left_iff.mp (List.forall₂_cons.mp h).2
      exact absurd hnil (List.splitOn_ne_nil _ _)
  | row row rest hrow ih =>
    rw [List.splitOn_append_cons_self_of_not_mem hrow] at h
    induction b using rowInduction with
    | last row' hrow' =>
      rw [List.splitOn_eq_singleton hrow'] at h
      have hnil := List.forall₂_nil_right_iff.mp (List.forall₂_cons.mp h).2
      exact absurd hnil (List.splitOn_ne_nil _ _)
    | row row' rest' hrow' _ =>
      rw [List.splitOn_append_cons_self_of_not_mem hrow'] at h
      obtain ⟨hedit, hrest⟩ := List.forall₂_cons.mp h
      rw [lines_row_newline hrow, lines_row_newline hrow']
      exact .cons hedit.dropReturn (ih hrest)

/-! ## All lines of a text -/

section AllLines

variable {banned : List Char} {as bs : List (List Char)}
  (h : List.Forall₂ (CodeEdit banned) as bs)

include h

/-- The last value along the lines does not depend on what no value depends on. -/
theorem findSomeRev?_codeEdit {β : Type} {f : List Char → Option β}
    (hf : ∀ code comment, (';' :: banned).Disjoint code →
      f (code ++ ';' :: comment) = f (';' :: comment)) :
    as.findSomeRev? f = bs.findSomeRev? f := by
  induction h with
  | nil => rfl
  | cons hedit _ ih => rw [findSomeRev?_cons, findSomeRev?_cons, ih, hedit.congr hf]

theorem foldr_layerMarks_codeEdit :
    as.foldr (fun line count => layerMarks line + count) 0 =
      bs.foldr (fun line count => layerMarks line + count) 0 := by
  induction h with
  | nil => rfl
  | cons hedit _ ih =>
    have hmarks := hedit.congr fun code comment hcode =>
      layerMarks_code (List.disjoint_cons_left.mp hcode).1 comment
    rw [List.foldr_cons, List.foldr_cons, ih, hmarks]

end AllLines

/-- A fact of which the last declaration holds does not depend on what no declaration of it
depends on. -/
theorem Metadata.view_extract_codeEdit {banned a b : List Char}
    (h : List.Forall₂ (CodeEdit banned) (lines a) (lines b)) {β : Type}
    (view : Metadata → Option β) (hempty : view empty = none)
    (hupdate : ∀ old new, view (old.update new) = (view new).or (view old))
    (hview : ∀ code comment, (';' :: banned).Disjoint code →
      view (ofLine (code ++ ';' :: comment)) = view (ofLine (';' :: comment))) :
    view (extract a) = view (extract b) := by
  rw [extract_view view hempty hupdate, extract_view view hempty hupdate,
    findSomeRev?_codeEdit h hview]

/-- The lines of two texts, or the rows between their newlines, differ in edits of code
only. -/
def SameButCode (banned a b : List Char) : Prop :=
  List.Forall₂ (CodeEdit banned) (lines a) (lines b) ∨
    List.Forall₂ (CodeEdit banned) (a.splitOn '\n') (b.splitOn '\n')

theorem SameButCode.lines {banned a b : List Char} (h : SameButCode banned a b) :
    List.Forall₂ (CodeEdit banned) (lines a) (lines b) :=
  h.elim id forall₂_lines

/-- **The code on a line never influences what is taken from its comment.** All that is found
behind a semicolon is found behind it after any other code too; for the flavor the code must
not have a colon either. So texts whose lines differ only in what stands in front of their
first semicolons have the same layer marks and the same facts. -/
theorem comment_data_ignore_code :
    (∀ code code' comment : List Char, ';' ∉ code → ';' ∉ code' →
      let line := code ++ ';' :: comment
      let line' := code' ++ ';' :: comment
      Declaration.time line = Declaration.time line' ∧
        Declaration.printingTime line = Declaration.printingTime line' ∧
        Declaration.filamentUsed line = Declaration.filamentUsed line' ∧
        Declaration.layerHeight line = Declaration.layerHeight line' ∧
        hasLayerTag line = hasLayerTag line' ∧ hasLayerMention line = hasLayerMention line' ∧
        (':' ∉ code → ':' ∉ code' → Declaration.flavor line = Declaration.flavor line')) ∧
    (∀ a b, SameButCode [] a b →
      countLayers a = countLayers b ∧
        (Metadata.extract a).estimatedTime = (Metadata.extract b).estimatedTime ∧
        (Metadata.extract a).filamentUsed = (Metadata.extract b).filamentUsed ∧
        (Metadata.extract a).layerHeight = (Metadata.extract b).layerHeight) ∧
    (∀ a b, SameButCode [':'] a b →
      (Metadata.extract a).flavor = (Metadata.extract b).flavor) := by
  refine ⟨?_, ?_, ?_⟩
  · intro code code' comment h h' line line'
    have htag : hasLayerTag line = hasLayerTag line' := by
      rw [hasLayerTag, commentOf_code h, hasLayerTag, commentOf_code h']
    have hmention : hasLayerMention line = hasLayerMention line' := by
      rw [hasLayerMention, commentOf_code h, hasLayerMention, commentOf_code h']
    refine ⟨?_, ?_, ?_, ?_, htag, hmention, ?_⟩
    · rw [Declaration.time_code h, Declaration.time_code h']
    · rw [Declaration.printingTime_code h, Declaration.printingTime_code h']
    · rw [Declaration.filamentUsed_code h, Declaration.filamentUsed_code h']
    · rw [Declaration.layerHeight_code h, Declaration.layerHeight_code h']
    · intro hcolon hcolon'
      rw [Declaration.flavor_code h comment hcolon, Declaration.flavor_code h' comment hcolon']
  · intro a b hsame
    have hcode : ∀ code : List Char, [';'].Disjoint code → ';' ∉ code := fun code hcode =>
      List.singleton_disjoint.mp hcode
    have hlines := hsame.lines
    refine ⟨foldr_layerMarks_codeEdit hlines, ?_, ?_, ?_⟩
    · apply Metadata.view_extract_codeEdit hlines Metadata.estimatedTime rfl (fun _ _ => rfl)
      intro code comment h
      rw [Metadata.ofLine, Declaration.printingTime_code (hcode code h),
        Declaration.time_code (hcode code h)]
      rfl
    · apply Metadata.view_extract_codeEdit hlines Metadata.filamentUsed rfl (fun _ _ => rfl)
      intro code comment h
      exact Declaration.filamentUsed_code (hcode code h) comment
    · apply Metadata.view_extract_codeEdit hlines Metadata.layerHeight rfl (fun _ _ => rfl)
      intro code comment h
      exact Declaration.layerHeight_code (hcode code h) comment
  · intro a b hsame
    apply Metadata.view_extract_codeEdit hsame.lines Metadata.flavor rfl (fun _ _ => rfl)
    intro code comment h
    obtain ⟨hsemicolon, hcolon⟩ := List.disjoint_cons_left.mp h
    exact Declaration.flavor_code hsemicolon comment (List.singleton_disjoint.mp hcolon)

/-- The code of two lines is replaced by text that has a marker but for its semicolon, and by
characters of several bytes; on the third line code is put in front. -/
theorem comment_data_after_other_code :
    let line := "G1 X1;TIME:30; layer".toList
    let line' := " estimated printing time 7h;TIME:30; layer".toList
    let a := "G1 X1;TIME:30; layer\r\nM104;LAYER:0\n;FLAVOR:Marlin".toList
    let b := " estimated printing time 7h;TIME:30; layer\r\n層é;LAYER:0\nG28;FLAVOR:Marlin".toList
    Declaration.time line = Declaration.time line' ∧ SameButCode [] a b ∧
      countLayers a = countLayers b ∧
      (Metadata.extract a).estimatedTime = (Metadata.extract b).estimatedTime ∧
      SameButCode [':'] a b ∧ (Metadata.extract a).flavor = (Metadata.extract b).flavor := by
  intro line line' a b
  have hrows : a.splitOn '\n' = ["G1 X1".toList ++ ';' :: "TIME:30; layer\r".toList,
      "M104".toList ++ ';' :: "LAYER:0".toList, [] ++ ';' :: "FLAVOR:Marlin".toList] := by
    decide +kernel
  have hrows' : b.splitOn '\n' =
      [" estimated printing time 7h".toList ++ ';' :: "TIME:30; layer\r".toList,
        "層é".toList ++ ';' :: "LAYER:0".toList, "G28".toList ++ ';' :: "FLAVOR:Marlin".toList] := by
    decide +kernel
  have hsame : ∀ banned, (∀ c ∈ banned, c = ':') → SameButCode banned a b := by
    intro banned hbanned
    have hdisjoint : ∀ code : List Char, ';' ∉ code ∧ ':' ∉ code →
        (';' :: banned).Disjoint code := by
      intro code hcode
      refine List.disjoint_cons_left.mpr ⟨hcode.1, ?_⟩
      intro c hc hmem
      exact hcode.2 (hbanned c hc ▸ hmem)
    have hedit : ∀ code code' comment : List Char, ';' ∉ code ∧ ':' ∉ code →
        ';' ∉ code' ∧ ':' ∉ code' →
        CodeEdit banned (code ++ ';' :: comment) (code' ++ ';' :: comment) :=
      fun code code' comment h h' => .code code code' comment (hdisjoint code h) (hdisjoint code' h')
    right
    rw [hrows, hrows']
    exact .cons (hedit _ _ _ (by decide) (by decide))
      (.cons (hedit _ _ _ (by decide) (by decide))
        (.cons (hedit _ _ _ (by decide) (by decide)) .nil))
  have hplain := hsame [] (List.forall_mem_nil _)
  have hcolon := hsame [':'] (List.forall_mem_singleton.mpr rfl)
  obtain ⟨hline, hfacts, hflavor⟩ := comment_data_ignore_code
  obtain ⟨hlayers, htime, -, -⟩ := hfacts a b hplain
  exact ⟨(hline "G1 X1".toList " estimated printing time 7h".toList "TIME:30; layer".toList
    (by decide) (by decide)).1, hplain, hlayers, htime, hcolon, hflavor a b hcolon⟩

end PrintJob
