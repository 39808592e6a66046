import Mathlib.Data.List.TakeWhile
import SeisFeed.Text.Blank
/-!
# Texts and their parts

What a text is made of, said by putting it together again: blank margins around a core that neither
begins nor ends with a blank, and parts with a mark between them that no part holds. There is one
such core and one such list of parts for each text, and trimming and splitting find them.
-/

namespace SeisFeed.Text

/-! ### Margins -/

/-- A text that neither begins nor ends with a blank. -/
def Trimmed (s : String) : Prop :=
  (∀ c ∈ s.toList.head?, isBlank c = false) ∧ ∀ c ∈ s.toList.getLast?, isBlank c = false

/-- A text of blanks only. -/
def Blank (s : String) : Prop :=
  ∀ c ∈ s.toList, isBlank c = true

/-- A text is its core between blank margins. -/
def HasCore (text core : String) : Prop :=
  Trimmed core ∧ ∃ front back, Blank front ∧ Blank back ∧ text = front ++ core ++ back

theorem dropWhile_isBlank {cs : List Char} (h : ∀ c ∈ cs.head?, isBlank c = false) :
    cs.dropWhile isBlank = cs := by
  cases cs with
  | nil => rfl
  | cons c cs => rw [List.dropWhile_cons_of_neg (by simp [h c rfl])]

theorem isBlank_of_head?_dropWhile {cs : List Char} {c : Char}
    (h : c ∈ (cs.dropWhile isBlank).head?) : isBlank c = false := by
  have hhead := List.head?_dropWhile_not isBlank cs
  rw [Option.mem_def.1 h] at hhead
  exact hhead

theorem blank_takeWhile (cs : List Char) : Blank (.ofList (cs.takeWhile isBlank)) := by
  intro c hc
  rw [String.toList_ofList] at hc
  exact List.mem_takeWhile_imp hc

theorem Blank.reverse {cs : List Char} (h : Blank (.ofList cs)) : Blank (.ofList cs.reverse) := by
  intro c hc
  rw [String.toList_ofList, List.mem_reverse] at hc
  exact h c (by rwa [String.toList_ofList])

theorem hasCore_trim (text : String) : HasCore text (trim text) := by
  let rest := text.toList.dropWhile isBlank
  have hfront : text.toList = text.toList.takeWhile isBlank ++ rest :=
    List.takeWhile_append_dropWhile.symm
  have hback : rest = trimChars text.toList ++ (rest.reverse.takeWhile isBlank).reverse := by
    have h := congrArg List.reverse (List.takeWhile_append_dropWhile (p := isBlank)
      (l := rest.reverse))
    rw [List.reverse_append, List.reverse_reverse] at h
    exact h.symm
  refine ⟨⟨?_, ?_⟩, .ofList (text.toList.takeWhile isBlank),
    .ofList (rest.reverse.takeWhile isBlank).reverse, blank_takeWhile _,
    (blank_takeWhile _).reverse, ?_⟩
  · intro c hc
    rw [trim, String.toList_ofList] at hc
    have hrest : c ∈ rest.head? := by
      rw [hback, List.head?_append, Option.mem_def.1 hc]
      rfl
    exact isBlank_of_head?_dropWhile hrest
  · intro c hc
    rw [trim, String.toList_ofList, trimChars, List.getLast?_reverse] at hc
    exact isBlank_of_head?_dropWhile hc
  · apply String.toList_injective
    rw [String.toList_append, String.toList_append, trim, String.toList_ofList,
      String.toList_ofList, String.toList_ofList, List.append_assoc, ← hback, ← hfront]

theorem HasCore.trim_eq {text core : String} (h : HasCore text core) : trim text = core := by
  obtain ⟨⟨hhead, hlast⟩, front, back, hfront, hback, rfl⟩ := h
  apply String.toList_injective
  rw [trim, trimChars, String.toList_ofList, String.toList_append, String.toList_append,
    List.append_assoc, List.dropWhile_append_of_pos hfront]
  by_cases hcore : core.toList = []
  · rw [hcore, List.nil_append, List.dropWhile_eq_nil_iff.2 hback]
    rfl
  · have hboth : (core.toList ++ back.toList).head? = core.toList.head? := by
      obtain ⟨c, cs, hcs⟩ := List.exists_cons_of_ne_nil hcore
      rw [hcs]
      rfl
    have hfirst : (core.toList ++ back.toList).dropWhile isBlank = core.toList ++ back.toList :=
      dropWhile_isBlank (by rwa [hboth])
    have hsecond : core.toList.reverse.dropWhile isBlank = core.toList.reverse :=
      dropWhile_isBlank (by rwa [List.head?_reverse])
    rw [hfirst, List.reverse_append,
      List.dropWhile_append_of_pos fun c hc => hback c (List.mem_reverse.1 hc), hsecond,
      List.reverse_reverse]

theorem trim_of_trimmed {s : String} (h : Trimmed s) : trim s = s := by
  have hcore : HasCore s s := ⟨h, "", "", by simp [Blank], by simp [Blank], by simp⟩
  exact hcore.trim_eq

/-- The text without its margins is empty just where there is nothing but margins. -/
theorem hasCore_empty_iff {text : String} : HasCore text "" ↔ Blank text := by
  constructor
  · rintro ⟨-, front, back, hfront, hback, rfl⟩ c hc
    simp only [String.append_empty, String.toList_append, List.mem_append] at hc
    exact hc.elim (hfront c) (hback c)
  · intro h
    exact ⟨by simp [Trimmed], text, "", h, by simp [Blank], by simp⟩

/-! ### Marks -/

/-- The parts of a text between the places of a mark: joined by the mark they make up the text, and
no part holds it. -/
structure Divided (mark : Char) (text : String) (parts : List String) : Prop where
  ne_nil : parts ≠ []
  notMem : ∀ part ∈ parts, mark ∉ part.toList
  joined : (String.singleton mark).intercalate parts = text

variable {mark : Char} {text : String} {parts : List String}

theorem notMem_of_mem_splitOn {cs part : List Char} (h : part ∈ cs.splitOn mark) :
    mark ∉ part := by
  induction cs generalizing part with
  | nil =>
    obtain rfl := List.mem_singleton.1 h
    exact List.not_mem_nil
  | cons c cs ih =>
    rw [List.splitOn_cons_eq_if_modifyHead] at h
    split at h
    · rcases List.mem_cons.1 h with rfl | h
      · exact List.not_mem_nil
      · exact ih h
    · next hc =>
      obtain ⟨first, others, hparts⟩ := List.exists_cons_of_ne_nil (List.splitOn_ne_nil mark cs)
      rw [hparts] at h ih
      rcases List.mem_cons.1 h with rfl | h
      · have hfirst := ih List.mem_cons_self
        have hne : mark ≠ c := fun h => hc (by simp [h])
        simp [hne, hfirst]
      · exact ih (List.mem_cons_of_mem first h)

theorem divided_splitOn (mark : Char) (text : String) :
    Divided mark text ((text.toList.splitOn mark).map String.ofList) where
  ne_nil := by simp [List.splitOn_ne_nil]
  notMem part hpart := by
    obtain ⟨cs, hcs, rfl⟩ := List.mem_map.1 hpart
    rw [String.toList_ofList]
    exact notMem_of_mem_splitOn hcs
  joined := by
    apply String.toList_injective
    simp [String.toList_intercalate, List.map_map, Function.comp_def, List.intercalate_splitOn]

theorem Divided.splitOn_eq (h : Divided mark text parts) :
    text.toList.splitOn mark = parts.map String.toList := by
  rw [← h.joined, String.toList_intercalate, String.toList_singleton]
  refine List.splitOn_intercalate mark ?_ (by simpa using h.ne_nil)
  intro cs hcs
  obtain ⟨part, hpart, rfl⟩ := List.mem_map.1 hcs
  exact h.notMem part hpart

theorem Divided.unique {parts' : List String} (h : Divided mark text parts)
    (h' : Divided mark text parts') : parts = parts' :=
  (List.map_inj_right fun _ _ => String.toList_inj.1).1 (h.splitOn_eq.symm.trans h'.splitOn_eq)

theorem divided_self (h : mark ∉ text.toList) : Divided mark text [text] where
  ne_nil := List.cons_ne_nil _ _
  notMem part hpart := by rwa [List.mem_singleton.1 hpart]
  joined := String.intercalate_singleton

/-- The parts of two texts with a mark between them are those of the first and then those of the
second. -/
theorem Divided.append {text' : String} {parts' : List String} (h : Divided mark text parts)
    (h' : Divided mark text' parts') :
    Divided mark (text ++ String.singleton mark ++ text') (parts ++ parts') where
  ne_nil := by simp [h.ne_nil]
  notMem part hpart := (List.mem_append.1 hpart).elim (h.notMem part) (h'.notMem part)
  joined := by rw [String.intercalate_append_of_ne_nil h.ne_nil h'.ne_nil, h.joined, h'.joined]

end SeisFeed.Text
