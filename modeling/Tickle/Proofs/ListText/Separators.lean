import Tickle.Proofs.ListText.RoundTrip

/-! # Cutting at separators

A text that opens no group is cut at its runs of separators and nowhere else, and these runs are all
that is lost. The elements are determined by the text: between two runs stands an element that is
not empty, so no run is cut twice. Only in front of a run with which the text begins, and behind one
with which it ends, there is an empty element. -/

namespace Tickle.ListText

/-- A text taken apart: elements without separators, with a run of separators between each two. An
element between two runs is not empty. -/
inductive Divided (separates : Char → Bool) : List Char → List (List Char) → Prop
  | last {e : List Char} : (∀ c ∈ e, separates c = false) → Divided separates e [e]
  | next {e gap rest e' : List Char} {es : List (List Char)} :
      (∀ c ∈ e, separates c = false) → gap ≠ [] → (∀ c ∈ gap, separates c = true) →
      (e' ≠ [] ∨ es = []) → Divided separates rest (e' :: es) →
      Divided separates (e ++ (gap ++ rest)) (e :: e' :: es)

namespace Divided

variable {separates : Char → Bool} {cs e : List Char} {es : List (List Char)}

theorem exists_cons (h : Divided separates cs es) : ∃ e es', es = e :: es' := by
  cases h <;> exact ⟨_, _, rfl⟩

/-! ## Every text can be divided -/

/-- A character in front of a text that is no separator belongs to the first element. -/
theorem extend {c : Char} (hc : separates c = false) (h : Divided separates cs (e :: es)) :
    Divided separates (c :: cs) ((c :: e) :: es) := by
  cases h with
  | last he => exact .last (List.forall_mem_cons.2 ⟨hc, he⟩)
  | next he hne hgap hinner hrest =>
    exact .next (List.forall_mem_cons.2 ⟨hc, he⟩) hne hgap hinner hrest

/-- A run at the beginning of a text stands behind an empty element. -/
theorem behind_gap {gap : List Char} (hne : gap ≠ []) (hgap : ∀ c ∈ gap, separates c = true)
    (hinner : e ≠ [] ∨ es = []) (h : Divided separates cs (e :: es)) :
    Divided separates (gap ++ cs) ([] :: e :: es) :=
  .next (List.forall_mem_nil _) hne hgap hinner h

/-- A separator in front of a text lengthens the run with which the text begins, or is a run by
itself. -/
theorem exists_separator {c : Char} (hc : separates c = true) (h : Divided separates cs es) :
    ∃ es', Divided separates (c :: cs) es' := by
  have hself : ∀ d ∈ [c], separates d = true := List.forall_mem_singleton.2 hc
  cases h with
  | last he =>
    exact ⟨_, behind_gap (List.cons_ne_nil c []) hself (.inr rfl) (.last he)⟩
  | @next e gap rest e' es he hne hgap hinner hrest =>
    cases e with
    | nil =>
      have hlonger : ∀ d ∈ c :: gap, separates d = true := List.forall_mem_cons.2 ⟨hc, hgap⟩
      exact ⟨_, behind_gap (List.cons_ne_nil c gap) hlonger hinner hrest⟩
    | cons d e =>
      have hinner' : d :: e ≠ [] ∨ e' :: es = [] := .inl (List.cons_ne_nil d e)
      exact ⟨_, behind_gap (List.cons_ne_nil c []) hself hinner' (.next he hne hgap hinner hrest)⟩

theorem exists_of_text (separates : Char → Bool) (cs : List Char) :
    ∃ es, Divided separates cs es := by
  induction cs with
  | nil => exact ⟨[[]], .last (List.forall_mem_nil _)⟩
  | cons c cs ih =>
    obtain ⟨es, hes⟩ := ih
    cases hc : separates c with
    | true => exact hes.exists_separator hc
    | false =>
      obtain ⟨e, es, rfl⟩ := hes.exists_cons
      exact ⟨_, hes.extend hc⟩

end Divided

/-! ## Reading a divided text -/

section Reading

variable {separates : Char → Bool} {cs : List Char}

/-- Characters that neither separate nor open a group are read into one element. -/
theorem elementsFrom_bare_append {e : List Char} (he : ∀ c ∈ e, separates c = false)
    (hbrace : '{' ∉ e) (rest : List Char) :
    elementsFrom separates .bare (e ++ rest) =
      e.foldr extend (elementsFrom separates .bare rest) := by
  induction e with
  | nil => rfl
  | cons c e ih =>
    obtain ⟨hc, he⟩ := List.forall_mem_cons.1 he
    have hne : c ≠ '{' := (List.ne_of_not_mem_cons hbrace).symm
    rw [List.cons_append, elementsFrom, if_neg hne, if_neg (by simp [hc]),
      ih he (List.not_mem_of_not_mem_cons hbrace), List.foldr_cons]

/-- A run of separators ends the element in front of it, which may be empty. -/
theorem elementsFrom_bare_run {gap : List Char} (hne : gap ≠ [])
    (hgap : ∀ c ∈ gap, separates c = true) (hbrace : '{' ∉ gap) (rest : List Char) :
    elementsFrom separates .bare (gap ++ rest) = [] :: elementsFrom separates .gap rest := by
  obtain ⟨c, gap, rfl⟩ := List.exists_cons_of_ne_nil hne
  obtain ⟨hc, hgap⟩ := List.forall_mem_cons.1 hgap
  have hopen : c ≠ '{' := (List.ne_of_not_mem_cons hbrace).symm
  rw [List.cons_append, elementsFrom, if_neg hopen, if_pos hc, elementsFrom_gap_append hgap]

/-- Where no separator follows, a run is over. -/
theorem Divided.elementsFrom_gap_eq {e : List Char} {es : List (List Char)}
    (h : Divided separates cs (e :: es)) (hinner : e ≠ [] ∨ es = []) :
    elementsFrom separates .gap cs = elementsFrom separates .bare cs := by
  have hfirst : ∀ c ∈ cs.head?, separates c = false := by
    cases h with
    | last he =>
      intro c hc
      exact he c (List.mem_of_mem_head? hc)
    | next he _ _ _ _ =>
      obtain ⟨d, e, rfl⟩ := List.exists_cons_of_ne_nil (hinner.resolve_right (List.cons_ne_nil _ _))
      rintro c ⟨⟩
      exact he d List.mem_cons_self
  cases cs with
  | nil => rfl
  | cons c cs => simp [elementsFrom, hfirst c rfl]

/-- The elements of a divided text are what is read. -/
theorem Divided.elementsFrom_eq {es : List (List Char)} (h : Divided separates cs es)
    (hbrace : '{' ∉ cs) : elementsFrom separates .bare cs = es := by
  induction h with
  | @last e he =>
    have hread := elementsFrom_bare_append he hbrace []
    rw [List.append_nil] at hread
    rw [hread, elementsFrom, foldr_extend, List.append_nil]
  | next he hne hgap hinner hrest ih =>
    simp only [List.mem_append, not_or] at hbrace
    obtain ⟨hbrace, hbrace', hbrace''⟩ := hbrace
    rw [elementsFrom_bare_append he hbrace, elementsFrom_bare_run hne hgap hbrace',
      hrest.elementsFrom_gap_eq hinner, ih hbrace'', foldr_extend, List.append_nil]

/-- Without groups a text is cut into the elements of its one division. -/
theorem elementsFrom_eq_iff_divided (hbrace : '{' ∉ cs) {es : List (List Char)} :
    elementsFrom separates .bare cs = es ↔ Divided separates cs es := by
  constructor
  · rintro rfl
    obtain ⟨es, hes⟩ := Divided.exists_of_text separates cs
    rwa [hes.elementsFrom_eq hbrace]
  · exact fun h => h.elementsFrom_eq hbrace

end Reading

/-- A text that is not empty and opens no group is cut into certain elements if and only if it is
made of these elements with runs of separators between them, where only the first and the last
element may be empty. In particular it can be taken apart so in one way only. -/
theorem split_eq_iff_divided {separators text : String} (hne : text ≠ "")
    (hbrace : '{' ∉ text.toList) (es : List String) :
    split separators text = es ↔
      Divided separators.toList.contains text.toList (es.map String.toList) := by
  have hcs : text.toList ≠ [] := by simpa using hne
  have hmap : ∀ ds : List (List Char), ds.map String.ofList = es ↔ ds = es.map String.toList := by
    intro ds
    constructor
    · rintro rfl
      simp
    · rintro rfl
      simp
  rw [split, elements_of_ne_nil _ hcs, hmap, elementsFrom_eq_iff_divided hbrace]

/-- A text that begins and ends with separators and holds a closing brace. -/
theorem split_stray_brace :
    ";:a\x7db:" ≠ "" ∧ '{' ∉ ";:a\x7db:".toList ∧ split ":;" ";:a\x7db:" = ["", "a\x7db", ""] := by
  have hne : ";:a\x7db:" ≠ "" := by decide
  have hbrace : '{' ∉ ";:a\x7db:".toList := by decide
  have hword : ∀ c ∈ ['a', '}', 'b'], ":;".toList.contains c = false := by simp
  have hfront : ∀ c ∈ [';', ':'], ":;".toList.contains c = true := by simp
  have hbehind : ∀ c ∈ [':'], ":;".toList.contains c = true := by simp
  have hlast : Divided ":;".toList.contains [] [[]] := .last (List.forall_mem_nil _)
  have hback : Divided ":;".toList.contains (['a', '}', 'b'] ++ ([':'] ++ []))
      [['a', '}', 'b'], []] := .next hword (by decide) hbehind (.inr rfl) hlast
  have hwhole : Divided ":;".toList.contains ([';', ':'] ++ ['a', '}', 'b', ':'])
      [[], ['a', '}', 'b'], []] := hback.behind_gap (by decide) hfront (.inl (by decide))
  exact ⟨hne, hbrace, (split_eq_iff_divided hne hbrace _).2 hwhole⟩

end Tickle.ListText
