/-!
# Cutting a sequence at a mark

A sequence is cut at the first occurrence of a mark: what stands before it, and what stands behind
it. Without an occurrence all of the sequence stands before and nothing behind, which is not the
same as an empty part behind. Main statement: a cut undoes joining two parts by a mark that the
first of them does not hold. Where a sequence is cut at all marks, no piece holds one.
-/

namespace MovieCatalog.Text

variable {α : Type} [DecidableEq α]

/-- What stands before the first occurrence of a mark, and what stands behind it, if it occurs. -/
def cutAt (mark : α) (s : List α) : List α × Option (List α) :=
  match s.dropWhile (· ≠ mark) with
  | [] => (s, none)
  | _ :: behind => (s.takeWhile (· ≠ mark), some behind)

theorem forall_ne_of_notMem {mark : α} {s : List α} (h : mark ∉ s) :
    ∀ a ∈ s, decide (a ≠ mark) = true :=
  fun _ ha => decide_eq_true fun e => h (e ▸ ha)

/-- A sequence without the mark stays whole. -/
theorem cutAt_of_notMem {mark : α} {s : List α} (h : mark ∉ s) : cutAt mark s = (s, none) := by
  have hd : (s ++ []).dropWhile (· ≠ mark) = [] :=
    List.dropWhile_append_of_pos (forall_ne_of_notMem h)
  rw [List.append_nil] at hd
  rw [cutAt, hd]

/-- A cut undoes joining two parts by a mark. -/
theorem cutAt_append_cons {mark : α} {front behind : List α} (h : mark ∉ front) :
    cutAt mark (front ++ mark :: behind) = (front, some behind) := by
  rw [cutAt, List.dropWhile_append_of_pos (forall_ne_of_notMem h),
    List.takeWhile_append_of_pos (forall_ne_of_notMem h)]
  simp

/-- No piece between marks holds a mark. -/
theorem not_of_mem_splitOnP {β : Type} {isMark : β → Bool} {s piece : List β}
    (h : piece ∈ s.splitOnP isMark) : ∀ a ∈ piece, isMark a = false := by
  induction s generalizing piece with
  | nil =>
    rw [List.splitOnP_nil, List.mem_singleton] at h
    simp [h]
  | cons c s ih =>
    rw [List.splitOnP_cons_eq_if_modifyHead] at h
    split at h
    · rcases List.mem_cons.1 h with rfl | h
      · simp
      · exact ih h
    · next hc =>
      obtain ⟨first, rest, hsplit⟩ := List.exists_cons_of_ne_nil (List.splitOnP_ne_nil isMark s)
      rw [hsplit, List.modifyHead_cons] at h
      rcases List.mem_cons.1 h with rfl | h
      · exact List.forall_mem_cons.2 ⟨Bool.eq_false_iff.2 hc, ih (hsplit ▸ List.mem_cons_self)⟩
      · exact ih (hsplit ▸ List.mem_cons_of_mem _ h)

end MovieCatalog.Text
