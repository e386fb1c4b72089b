import Mathlib.Data.List.DropRight
import Mathlib.Data.List.Forall2
import TypedRecords.Directive

/-!
# The items of a directive text

A text is cut at every comma, and each piece is freed of the white space at its ends. Both are determined by
what they leave: the pieces have no comma and give the text when commas join them, and an item is a middle
part of its piece that has white space on both sides and at neither of its own ends.
-/

namespace TypedRecords

/-! ## White space at the ends -/

def Blank (cs : List Char) : Prop := ∀ c ∈ cs, isBlank c = true

structure Bare (cs : List Char) : Prop where
  head : ∀ c, cs.head? = some c → isBlank c = false
  last : ∀ c, cs.getLast? = some c → isBlank c = false

def Trims (piece item : List Char) : Prop :=
  ∃ s t, Blank s ∧ Blank t ∧ piece = s ++ item ++ t ∧ Bare item

theorem blank_nil : Blank [] := nofun

theorem bare_nil : Bare [] := ⟨nofun, nofun⟩

theorem trimEnd_eq (cs : List Char) : trimEnd cs = cs.rdropWhile isBlank := rfl

theorem trimStart_append {s : List Char} (hs : Blank s) (cs : List Char) : trimStart (s ++ cs) = trimStart cs :=
  List.dropWhile_append_of_pos hs

theorem trimStart_eq_self {cs : List Char} (h : ∀ c, cs.head? = some c → isBlank c = false) :
    trimStart cs = cs := by
  cases cs with
  | nil => rfl
  | cons c cs => simp [trimStart, h c rfl]

theorem trimEnd_append (cs : List Char) {t : List Char} (ht : Blank t) : trimEnd (cs ++ t) = trimEnd cs := by
  unfold trimEnd
  rw [List.reverse_append, List.dropWhile_append_of_pos]
  intro c hc
  exact ht c (List.mem_reverse.mp hc)

theorem trimEnd_eq_self {cs : List Char} (h : ∀ c, cs.getLast? = some c → isBlank c = false) :
    trimEnd cs = cs := by
  rw [trimEnd_eq, List.rdropWhile_eq_self_iff]
  intro hne
  simp [h _ (List.getLast?_eq_some_getLast hne)]

theorem exists_trimStart (cs : List Char) : ∃ s, Blank s ∧ cs = s ++ trimStart cs :=
  ⟨cs.takeWhile isBlank, fun _ hc => List.mem_takeWhile_imp hc, List.takeWhile_append_dropWhile.symm⟩

theorem exists_trimEnd (cs : List Char) : ∃ t, Blank t ∧ cs = trimEnd cs ++ t :=
  ⟨cs.rtakeWhile isBlank, fun _ hc => List.mem_rtakeWhile_imp hc, (List.rdropWhile_append_rtakeWhile ..).symm⟩

theorem head?_trimStart {cs : List Char} {c : Char} (h : (trimStart cs).head? = some c) : isBlank c = false := by
  have := List.head?_dropWhile_not isBlank cs
  rw [show List.dropWhile isBlank cs = trimStart cs from rfl, h] at this
  exact this

theorem getLast?_trimEnd {cs : List Char} {c : Char} (h : (trimEnd cs).getLast? = some c) : isBlank c = false := by
  unfold trimEnd at h
  rw [List.getLast?_reverse] at h
  exact head?_trimStart h

theorem trims_trim (cs : List Char) : Trims cs (trim cs) := by
  obtain ⟨s, hs, hcs⟩ := exists_trimStart cs
  obtain ⟨t, ht, hst⟩ := exists_trimEnd (trimStart cs)
  refine ⟨s, t, hs, ht, ?_, ?_, fun c hc => getLast?_trimEnd hc⟩
  · rw [List.append_assoc]
    unfold trim
    rw [← hst]
    exact hcs
  · intro c hc
    have hstart : (trimStart cs).head? = some c := by
      rw [hst, List.head?_append, show (trimEnd (trimStart cs)).head? = some c from hc]
      rfl
    exact head?_trimStart hstart

theorem Trims.eq_trim {piece item : List Char} (h : Trims piece item) : item = trim piece := by
  obtain ⟨s, t, hs, ht, rfl, hb⟩ := h
  unfold trim
  rw [List.append_assoc, trimStart_append hs]
  by_cases hne : item = []
  · -- only white space is left, which the front takes away
    subst hne
    have hnil : trimStart t = [] := by simpa [trimStart] using trimStart_append ht []
    rw [List.nil_append, hnil]
    rfl
  · have hstart : trimStart (item ++ t) = item ++ t := by
      apply trimStart_eq_self
      intro c hc
      rw [List.head?_append_of_ne_nil _ hne] at hc
      exact hb.head c hc
    rw [hstart, trimEnd_append item ht, trimEnd_eq_self hb.last]

theorem trims_iff {piece item : List Char} : Trims piece item ↔ item = trim piece := by
  refine ⟨Trims.eq_trim, ?_⟩
  intro h
  exact h ▸ trims_trim piece

theorem bare_trim (cs : List Char) : Bare (trim cs) := by
  obtain ⟨s, t, -, -, -, hb⟩ := trims_trim cs
  exact hb

theorem trim_of_bare {cs : List Char} (h : Bare cs) : trim cs = cs :=
  (Trims.eq_trim ⟨[], [], blank_nil, blank_nil, by simp, h⟩).symm

theorem trim_cons_blank {c : Char} (h : isBlank c = true) (cs : List Char) : trim (c :: cs) = trim cs := by
  unfold trim
  rw [show trimStart (c :: cs) = trimStart cs by simp [trimStart, h]]

theorem trim_eq_nil {cs : List Char} : trim cs = [] ↔ Blank cs := by
  refine ⟨?_, ?_⟩
  · intro h
    obtain ⟨s, t, hs, ht, hcs, -⟩ := trims_trim cs
    rw [h, List.append_nil] at hcs
    rw [hcs]
    intro c hc
    rcases List.mem_append.mp hc with hc | hc
    · exact hs c hc
    · exact ht c hc
  · intro h
    exact (Trims.eq_trim ⟨cs, [], h, blank_nil, by simp, bare_nil⟩).symm

theorem Trims.reverse {piece item : List Char} (h : Trims piece item) : Trims piece.reverse item.reverse := by
  obtain ⟨s, t, hs, ht, rfl, hb⟩ := h
  refine ⟨t.reverse, s.reverse, ?_, ?_, by simp, ?_, ?_⟩
  · intro c hc
    exact ht c (List.mem_reverse.mp hc)
  · intro c hc
    exact hs c (List.mem_reverse.mp hc)
  · intro c hc
    exact hb.last c (by rwa [List.head?_reverse] at hc)
  · intro c hc
    exact hb.head c (by rwa [List.getLast?_reverse] at hc)

theorem Trims.head? {c : Char} {cs item : List Char} (h : Trims (c :: cs) item) (hc : isBlank c = false) :
    item.head? = some c := by
  obtain ⟨s, t, hs, ht, hcs, -⟩ := h
  have hnot : ∀ l, Blank (c :: l) → False := fun l hl => by simp [hl c (List.mem_cons_self ..)] at hc
  cases s with
  | cons b s =>
    rw [List.cons_append, List.cons_append, List.cons.injEq] at hcs
    exact (hnot s (hcs.1 ▸ hs)).elim
  | nil =>
    cases item with
    | nil => exact (hnot cs (by rw [hcs]; exact ht)).elim
    | cons b item =>
      rw [List.nil_append, List.cons_append, List.cons.injEq] at hcs
      rw [hcs.1]
      rfl

theorem head?_trim {c : Char} (hc : isBlank c = false) (cs : List Char) : (trim (c :: cs)).head? = some c :=
  (trims_trim _).head? hc

theorem getLast?_trim {c : Char} (hc : isBlank c = false) (cs : List Char) :
    (trim (cs ++ [c])).getLast? = some c := by
  have h := (trims_trim (cs ++ [c])).reverse
  rw [List.reverse_append] at h
  rw [← List.head?_reverse]
  exact h.head? hc

/-! ## Pieces between commas -/

structure Pieces (text : List Char) (pieces : List (List Char)) : Prop where
  joined : [','].intercalate pieces = text
  ne_nil : pieces ≠ []
  plain : ∀ p ∈ pieces, ',' ∉ p

theorem splitCommas_eq (cs : List Char) : splitCommas cs = cs.splitOn ',' := by
  induction cs with
  | nil => rfl
  | cons c cs ih =>
    rw [splitCommas, List.splitOn_cons_eq_if_modifyHead, ih]
    by_cases hc : c = ','
    · simp [hc]
    · rw [if_neg hc, if_neg (by simpa using hc)]
      cases hs : cs.splitOn ',' with
      | nil => exact absurd hs (List.splitOn_ne_nil ',' cs)
      | cons p ps => rfl

theorem splitCommas_append (cs ds : List Char) :
    splitCommas (cs ++ ',' :: ds) = splitCommas cs ++ splitCommas ds := by
  simp only [splitCommas_eq, List.splitOn_append_cons_self]

theorem splitCommas_of_not_mem {cs : List Char} (h : ',' ∉ cs) : splitCommas cs = [cs] := by
  rw [splitCommas_eq, List.splitOn_eq_singleton h]

theorem splitCommas_ne_nil (cs : List Char) : splitCommas cs ≠ [] := by
  rw [splitCommas_eq]
  exact List.splitOn_ne_nil ',' cs

theorem not_mem_of_mem_splitCommas {cs p : List Char} (h : p ∈ splitCommas cs) : ',' ∉ p := by
  induction cs generalizing p with
  | nil => simp_all [splitCommas]
  | cons c cs ih =>
    rw [splitCommas] at h
    by_cases hc : c = ','
    · rw [if_pos hc] at h
      rcases List.mem_cons.mp h with rfl | h
      · simp
      · exact ih h
    · rw [if_neg hc] at h
      cases hs : splitCommas cs with
      | nil => exact absurd hs (splitCommas_ne_nil cs)
      | cons q qs =>
        rw [hs] at h ih
        rcases List.mem_cons.mp h with rfl | h
        · simp [Ne.symm hc, ih (List.mem_cons_self ..)]
        · exact ih (List.mem_cons_of_mem _ h)

theorem pieces_iff {text : List Char} {pieces : List (List Char)} :
    Pieces text pieces ↔ pieces = splitCommas text := by
  refine ⟨?_, ?_⟩
  · intro h
    rw [← h.joined, splitCommas_eq, List.splitOn_intercalate ',' h.plain h.ne_nil]
  · rintro rfl
    refine ⟨?_, splitCommas_ne_nil text, fun p hp => not_mem_of_mem_splitCommas hp⟩
    rw [splitCommas_eq, List.intercalate_splitOn]

theorem splitCommas_concat {c : Char} (hc : c ≠ ',') (cs : List Char) :
    ∃ pieces p, splitCommas (cs ++ [c]) = pieces ++ [p ++ [c]] := by
  induction cs with
  | nil => exact ⟨[], [], by simp [splitCommas, hc]⟩
  | cons b cs ih =>
    obtain ⟨pieces, p, h⟩ := ih
    rw [List.cons_append, splitCommas, h]
    by_cases hb : b = ','
    · exact ⟨[] :: pieces, p, by simp [hb]⟩
    · rw [if_neg hb]
      cases pieces with
      | nil => exact ⟨[], b :: p, rfl⟩
      | cons q pieces => exact ⟨(b :: q) :: pieces, p, rfl⟩

/-! ## Items -/

def Items (text : String) (items : List (List Char)) : Prop :=
  ∃ pieces, Pieces text.toList pieces ∧ List.Forall₂ Trims pieces items

namespace Directives

theorem items_iff {text : String} {items : List (List Char)} : Items text items ↔ items = Directives.items text := by
  have hfun : Trims = fun piece item => trim piece = item := by
    funext piece item
    exact propext (trims_iff.trans eq_comm)
  have htrim : ∀ pieces, List.Forall₂ Trims pieces items ↔ items = pieces.map trim := by
    intro pieces
    rw [eq_comm, ← List.forall₂_eq_eq_eq, List.forall₂_map_left_iff, hfun]
  unfold Items Directives.items
  simp only [pieces_iff, exists_eq_left, htrim]

theorem bare_of_mem_items {text : String} {item : List Char} (h : item ∈ items text) : Bare item := by
  obtain ⟨piece, -, rfl⟩ := List.mem_map.mp h
  exact bare_trim piece

/-- Text after a comma adds its own items. -/
theorem items_append (before text : String) : items (before ++ ", " ++ text) = items before ++ items text := by
  have hlist : (before ++ ", " ++ text).toList = before.toList ++ ',' :: ' ' :: text.toList := by simp
  have hblank : (splitCommas (' ' :: text.toList)).map trim = (splitCommas text.toList).map trim := by
    rw [splitCommas, if_neg (by decide)]
    cases hs : splitCommas text.toList with
    | nil => exact absurd hs (splitCommas_ne_nil _)
    | cons p ps => simp [trim_cons_blank (show isBlank ' ' = true by decide)]
  unfold items
  rw [hlist, splitCommas_append, List.map_append, hblank]

end Directives

end TypedRecords
