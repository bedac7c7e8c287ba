import Mathlib

/-!
# Segments with separators between them

A text may be a list of segments, with a separator between any two and perhaps
one after the last.  A segment is not empty and has no separator in it, so that
the segments can be told from the text (`segmentsOf_text`), and a text begins
with another one and a separator just where its segments begin with those of
the other one (`prefix_of_text`).
-/

namespace Segments

variable {α : Type*}

/-- A segment: not empty, and free of separators. -/
def IsSegment (sep : α) (s : List α) : Prop := s ≠ [] ∧ sep ∉ s

/-- What stands before, between and after the separators. -/
def pieces (segments : List (List α)) (trailing : Bool) : List (List α) :=
  if trailing = true ∧ segments ≠ [] then segments ++ [[]] else segments

/-- The text of the segments. -/
def text (sep : α) (segments : List (List α)) (trailing : Bool) : List α :=
  [sep].intercalate (pieces segments trailing)

section

variable [DecidableEq α] (sep : α)

/-- The segments in a text. -/
def segmentsOf (s : List α) : List (List α) :=
  (s.splitOn sep).filter fun piece => piece ≠ []

/-- What follows the `n`-th separator of a text. -/
def afterSep (n : ℕ) (s : List α) : Option (List α) :=
  if n < (s.splitOn sep).length then
    some ([sep].intercalate ((s.splitOn sep).drop n))
  else none

end

variable {sep : α} {segments rest : List (List α)} {trailing : Bool}

@[simp] theorem pieces_nil : pieces ([] : List (List α)) trailing = [] := by
  simp [pieces]

@[simp] theorem pieces_false : pieces segments false = segments := by
  simp [pieces]

theorem pieces_true (h : segments ≠ []) :
    pieces segments true = segments ++ [[]] := if_pos ⟨rfl, h⟩

@[simp] theorem text_nil : text sep [] trailing = [] := by
  rw [text, pieces_nil]
  rfl

theorem pieces_eq_nil : pieces segments trailing = [] ↔ segments = [] := by
  unfold pieces
  split
  · next h => simp [h.2]
  · rfl

/-- The pieces after some segments are those of the rest, unless nothing but
the separator is left. -/
theorem pieces_append (h : rest ≠ []) :
    pieces (segments ++ rest) trailing =
      segments ++ pieces rest trailing := by
  cases trailing with
  | false => rw [pieces_false, pieces_false]
  | true =>
      rw [pieces_true h, pieces_true (by simp [h]), List.append_assoc]

theorem sep_notMem_of_mem_pieces (hsep : ∀ s ∈ segments, IsSegment sep s) :
    ∀ piece ∈ pieces segments trailing, sep ∉ piece := by
  intro piece hpiece
  unfold pieces at hpiece
  split at hpiece
  · obtain hsegment | hlast := List.mem_append.mp hpiece
    · exact (hsep piece hsegment).2
    · rw [List.mem_singleton.mp hlast]
      exact List.not_mem_nil
  · exact (hsep piece hpiece).2

theorem intercalate_append {before after : List (List α)}
    (hbefore : before ≠ []) (hafter : after ≠ []) :
    [sep].intercalate (before ++ after) =
      [sep].intercalate before ++ sep :: [sep].intercalate after := by
  induction before with
  | nil => exact absurd rfl hbefore
  | cons first others ih =>
      by_cases hothers : others = []
      · rw [hothers, List.cons_append, List.nil_append,
          List.intercalate_cons_of_ne_nil hafter, List.intercalate_singleton,
          List.append_assoc]
        rfl
      · have hboth : others ++ after ≠ [] :=
          List.append_ne_nil_of_left_ne_nil hothers _
        rw [List.cons_append, List.intercalate_cons_of_ne_nil hboth,
          ih hothers, List.intercalate_cons_of_ne_nil hothers]
        simp only [List.append_assoc]

/-- **Text of a text.** -/
theorem text_append (hsegments : segments ≠ [])
    (hrest : rest ≠ [] ∨ trailing = true) :
    text sep (segments ++ rest) trailing =
      text sep segments false ++ sep :: text sep rest trailing := by
  by_cases hempty : rest = []
  · obtain rfl := hrest.resolve_left (not_not_intro hempty)
    rw [hempty, List.append_nil, text_nil, text, text, pieces_true hsegments,
      pieces_false, intercalate_append hsegments (List.cons_ne_nil _ _),
      List.intercalate_singleton]
  · rw [text, text, text, pieces_append hempty, pieces_false]
    exact intercalate_append hsegments (mt pieces_eq_nil.mp hempty)

/-! ## Splitting -/

variable [DecidableEq α]

theorem splitOn_text (hsep : ∀ s ∈ segments, IsSegment sep s)
    (hsegments : segments ≠ []) :
    (text sep segments trailing).splitOn sep = pieces segments trailing :=
  List.splitOn_intercalate sep (sep_notMem_of_mem_pieces hsep)
    (mt pieces_eq_nil.mp hsegments)

omit [DecidableEq α] in
theorem filter_segments (hsep : ∀ s ∈ segments, IsSegment sep s) :
    segments.filter (fun piece => piece ≠ []) = segments := by
  refine List.filter_eq_self.mpr ?_
  intro s hs
  exact decide_eq_true (hsep s hs).1

/-- **Round trip.** -/
@[simp] theorem segmentsOf_text (hsep : ∀ s ∈ segments, IsSegment sep s) :
    segmentsOf sep (text sep segments trailing) = segments := by
  by_cases hempty : segments = []
  · rw [hempty, text_nil]
    rfl
  · rw [segmentsOf, splitOn_text hsep hempty, pieces]
    split
    · rw [List.filter_append, filter_segments hsep]
      exact List.append_nil segments
    · exact filter_segments hsep

variable (trailing) in
theorem text_eq_nil (hsep : ∀ s ∈ segments, IsSegment sep s) :
    text sep segments trailing = [] ↔ segments = [] := by
  constructor
  · intro h
    have hround : segmentsOf sep (text sep segments trailing) = segments :=
      segmentsOf_text hsep
    rw [← hround, h]
    rfl
  · rintro rfl
    exact text_nil

/-- A separator in front is not part of any segment. -/
@[simp] theorem segmentsOf_cons_sep {s : List α} :
    segmentsOf sep (sep :: s) = segmentsOf sep s := by
  rw [segmentsOf, List.splitOn_cons_eq_if_modifyHead,
    if_pos (beq_self_eq_true _)]
  rfl

/-- Two texts without a separator at the end are the same where their segments
are. -/
theorem text_false_injOn {segments' : List (List α)}
    (hsep : ∀ s ∈ segments, IsSegment sep s)
    (hsep' : ∀ s ∈ segments', IsSegment sep s)
    (h : text sep segments trailing = text sep segments' false) :
    segments = segments' := by
  have hround : segmentsOf sep (text sep segments trailing) = segments :=
    segmentsOf_text hsep
  rw [← hround, h, segmentsOf_text hsep']

/-- There is one piece more than there are separators. -/
theorem count_sep {s : List α} :
    s.count sep + 1 = (s.splitOn sep).length := by
  induction s with
  | nil => rfl
  | cons a s ih =>
      rw [List.splitOn_cons_eq_if_modifyHead, List.count_cons]
      split
      · rw [List.length_cons, ← ih]
      · rw [List.length_modifyHead, ← ih, Nat.add_zero]

/-- **Prefixes.**  Where a text begins with another one and a separator, its
segments begin with those of the other one. -/
theorem prefix_of_text {segments' : List (List α)} {after : List α}
    (hsep : ∀ s ∈ segments, IsSegment sep s)
    (hsep' : ∀ s ∈ segments', IsSegment sep s) (hsegments : segments ≠ [])
    (h : text sep segments false ++ sep :: after =
      text sep segments' trailing) :
    ∃ rest, segments' = segments ++ rest ∧ (rest ≠ [] ∨ trailing = true) ∧
      after = text sep rest trailing := by
  have hne : segments' ≠ [] := by
    rintro rfl
    rw [text_nil] at h
    exact List.append_ne_nil_of_right_ne_nil _ (List.cons_ne_nil _ _) h
  have hsplit : segments ++ after.splitOn sep = pieces segments' trailing := by
    rw [← splitOn_text hsep' hne, ← h, List.splitOn_append_cons_self,
      splitOn_text hsep hsegments, pieces_false]
  have hafter : [sep].intercalate (after.splitOn sep) = after :=
    List.intercalate_splitOn sep
  cases trailing with
  | false =>
      rw [pieces_false] at hsplit
      refine ⟨after.splitOn sep, hsplit.symm, ?_, ?_⟩
      · exact .inl (List.splitOn_ne_nil _ _)
      · rw [text, pieces_false, hafter]
  | true =>
      obtain ⟨rest, last, hconcat⟩ : ∃ rest last,
          after.splitOn sep = rest ++ [last] :=
        ⟨_, _, (List.dropLast_append_getLast (List.splitOn_ne_nil _ _)).symm⟩
      rw [pieces_true hne, hconcat, ← List.append_assoc] at hsplit
      obtain ⟨hrest, hlast⟩ := List.append_inj' hsplit rfl
      refine ⟨rest, hrest.symm, .inr rfl, ?_⟩
      rw [← hafter, hconcat, hlast]
      by_cases hempty : rest = []
      · rw [hempty, text_nil]
        rfl
      · rw [text, pieces_true hempty]

/-- What follows a separator is shorter. -/
theorem length_afterSep_lt {n : ℕ} {s after : List α} (hn : 0 < n)
    (h : afterSep sep n s = some after) : after.length < s.length := by
  unfold afterSep at h
  split at h
  · next hlt =>
      obtain rfl := Option.some.inj h
      have hbefore : (s.splitOn sep).take n ≠ [] := by
        rw [ne_eq, List.take_eq_nil_iff, not_or]
        exact ⟨hn.ne', List.splitOn_ne_nil sep s⟩
      have hafter : (s.splitOn sep).drop n ≠ [] := by
        rw [ne_eq, List.drop_eq_nil_iff, not_le]
        exact hlt
      have hlen : ([sep].intercalate ((s.splitOn sep).take n ++
          (s.splitOn sep).drop n)).length = _ :=
        congrArg List.length (intercalate_append hbefore hafter)
      rw [List.take_append_drop, List.intercalate_splitOn] at hlen
      rw [List.length_append, List.length_cons] at hlen
      omega
  · exact nomatch h

omit [DecidableEq α] in
theorem text_true (h : segments ≠ []) :
    text sep segments true = text sep segments false ++ [sep] := by
  have happend : text sep (segments ++ []) true =
      text sep segments false ++ sep :: text sep [] true :=
    text_append h (.inr rfl)
  rwa [List.append_nil, text_nil] at happend

variable (trailing) in
/-- A text ends with a separator only where one was put. -/
theorem getLast?_text (hsep : ∀ s ∈ segments, IsSegment sep s) :
    (text sep segments trailing).getLast? = some sep ↔
      trailing = true ∧ segments ≠ [] := by
  by_cases hempty : segments = []
  · simp [hempty]
  cases trailing with
  | true =>
      rw [text_true hempty, List.getLast?_append]
      simp [hempty]
  | false =>
      have hlast : (text sep segments false).getLast? ≠ some sep := by
        rw [text, pieces_false]
        induction segments with
        | nil => exact absurd rfl hempty
        | cons first others ih =>
            obtain ⟨hfirst, hothers⟩ := List.forall_mem_cons.mp hsep
            by_cases hsingle : others = []
            · rw [hsingle, List.intercalate_singleton]
              exact fun h => hfirst.2 (List.mem_of_getLast? h)
            · have hrest := ih hothers hsingle
              have hnonempty : [sep].intercalate others ≠ [] := by
                have htext := mt (text_eq_nil false hothers).mp
                  hsingle
                rwa [text, pieces_false] at htext
              rw [List.intercalate_cons_of_ne_nil hsingle,
                List.getLast?_append, List.getLast?_eq_some_getLast hnonempty]
              rw [List.getLast?_eq_some_getLast hnonempty] at hrest
              exact hrest
      simp [hlast]

variable (trailing) in
theorem count_text (hsep : ∀ s ∈ segments, IsSegment sep s)
    (hsegments : segments ≠ []) :
    (text sep segments trailing).count sep + 1 =
      segments.length + trailing.toNat := by
  rw [count_sep, splitOn_text hsep hsegments]
  cases trailing with
  | false => rw [pieces_false]; rfl
  | true => rw [pieces_true hsegments, List.length_append]; rfl

/-- What follows the `n`-th separator are the segments from there on. -/
theorem afterSep_text {n : ℕ} (hsep : ∀ s ∈ segments, IsSegment sep s) :
    (afterSep sep n (text sep segments trailing)).getD [] =
      text sep (segments.drop n) trailing := by
  by_cases hempty : segments = []
  · rw [hempty, List.drop_nil, text_nil, afterSep, List.splitOn_nil]
    cases n with
    | zero => rfl
    | succ n => rfl
  · rw [afterSep, splitOn_text hsep hempty]
    by_cases hn : n < segments.length
    · have hdrop : segments.drop n ≠ [] := by
        rw [ne_eq, List.drop_eq_nil_iff, not_le]
        exact hn
      have hsplit : pieces (segments.take n ++ segments.drop n) trailing =
          segments.take n ++ pieces (segments.drop n) trailing :=
        pieces_append hdrop
      have hlen : (segments.take n).length = n :=
        List.length_take_of_le hn.le
      rw [List.take_append_drop] at hsplit
      have hpieces : (pieces segments trailing).drop n =
          pieces (segments.drop n) trailing := by
        rw [hsplit, List.drop_append, List.drop_of_length_le hlen.le, hlen,
          Nat.sub_self, List.drop_zero, List.nil_append]
      rw [if_pos, hpieces]
      · rfl
      · rw [hsplit, List.length_append, hlen]
        refine Nat.lt_add_of_pos_right (List.length_pos_of_ne_nil ?_)
        exact mt pieces_eq_nil.mp hdrop
    -- nothing is left but, perhaps, what follows the last separator
    · have hdrop : segments.drop n = [] :=
        List.drop_eq_nil_iff.mpr (not_lt.mp hn)
      have hpieces : (pieces segments trailing).drop n = [] ∨
          (pieces segments trailing).drop n = [[]] := by
        unfold pieces
        split
        · rw [List.drop_append, hdrop, List.nil_append]
          cases n - segments.length with
          | zero => exact .inr rfl
          | succ k => exact .inl (List.drop_nil)
        · exact .inl hdrop
      rw [hdrop, text_nil]
      split
      · obtain hnone | hlast := hpieces
        · rw [hnone]
          rfl
        · rw [hlast]
          rfl
      · rfl

/-- Nor does what is in front of the first separator matter to what follows
later ones. -/
theorem afterSep_cons_sep {n : ℕ} {s : List α} :
    afterSep sep (n + 1) (sep :: s) = afterSep sep n s := by
  rw [afterSep, afterSep, List.splitOn_cons_eq_if_modifyHead,
    if_pos (beq_self_eq_true _), List.length_cons, List.drop_succ_cons]
  simp

/-- A text does not begin with a separator. -/
theorem text_ne_sep_cons {s : List α} (hsep : ∀ s ∈ segments, IsSegment sep s) :
    text sep segments trailing ≠ sep :: s := by
  intro h
  by_cases hempty : segments = []
  · rw [hempty, text_nil] at h
    exact nomatch h
  · have hsplit : (text sep segments trailing).splitOn sep =
        pieces segments trailing := splitOn_text hsep hempty
    rw [h, List.splitOn_cons_eq_if_modifyHead,
      if_pos (beq_self_eq_true _)] at hsplit
    have hmem : [] ∈ segments := by
      obtain ⟨first, others, rfl⟩ := List.exists_cons_of_ne_nil hempty
      unfold pieces at hsplit
      split at hsplit
      · rw [(List.cons.inj hsplit).1]
        exact List.mem_cons_self
      · rw [(List.cons.inj hsplit).1]
        exact List.mem_cons_self
    exact (hsep [] hmem).1 rfl

end Segments
