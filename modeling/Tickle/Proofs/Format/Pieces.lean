import Tickle.Format.Fill
import Tickle.Proofs.Number.DecimalIntegers
import Tickle.Proofs.Text.Runs

/-! # Formats piece by piece

A format is made of characters that stand for themselves, a percent sign being written twice, and of
specifiers. A text is a format in at most one way. The scan for conversions and the reader of
directives both go through it specifier by specifier, so they find the same conversions in the same
places. They would part where a digit of another script stands among the options of a specifier,
which the scan takes for a digit and the reader does not. -/

namespace Tickle.Format

open Tickle.Text

/-! ## Specifiers -/

/-- A specifier as it is written: flags, a width, places behind a point, and a conversion that is
supported. A zero in front of the width is a flag. -/
@[ext]
structure Specifier where
  flags : List Char
  width : List Char
  places : Option (List Char)
  conversion : Char
  isFlag_of_mem : ∀ c ∈ flags, isFlag c = true
  isDigit_of_mem : ∀ c ∈ width, c.isDigit = true
  head_ne_zero : width.head? ≠ some '0'
  isDigit_of_mem_places : ∀ ds ∈ places, ∀ c ∈ ds, c.isDigit = true
  supported : (family? conversion).isSome = true

/-- Places with the point in front of them. -/
def pointed : Option (List Char) → List Char
  | none => []
  | some ds => '.' :: ds

namespace Specifier

/-- What stands between the percent sign and the conversion. -/
def options (s : Specifier) : List Char := s.flags ++ (s.width ++ pointed s.places)

/-- The directive that a specifier describes. -/
def directive (s : Specifier) : Directive where
  left := s.flags.contains '-'
  plus := s.flags.contains '+'
  space := s.flags.contains ' '
  alternate := s.flags.contains '#'
  zero := s.flags.contains '0'
  width := if s.width.isEmpty then none else some (Number.ofDigits s.width)
  precision := s.places.map Number.ofDigits
  conversion := s.conversion

/-- Neither the width nor the precision is too large. -/
structure WithinLimits (s : Specifier) : Prop where
  width_le : s.directive.width.getD 0 ≤ maxWidth
  precision_le : s.directive.precision.getD 0 ≤ maxPrecision
  digits_le : s.directive.asksTooMuch = false

instance : DecidablePred WithinLimits := fun s =>
  decidable_of_iff (s.directive.width.getD 0 ≤ maxWidth ∧
      s.directive.precision.getD 0 ≤ maxPrecision ∧ s.directive.asksTooMuch = false)
    ⟨fun ⟨h1, h2, h3⟩ => ⟨h1, h2, h3⟩, fun h => ⟨h.width_le, h.precision_le, h.digits_le⟩⟩

end Specifier

/-- The character is no option of a specifier, so it ends the options. -/
structure EndsOptions (c : Char) : Prop where
  not_flag : isFlag c = false
  not_decimal : isDecimal c = false
  ne_point : c ≠ '.'
  ne_percent : c ≠ '%'
  ne_lineEnd : c ≠ '\n'

instance : DecidablePred EndsOptions := fun c =>
  decidable_of_iff (isFlag c = false ∧ isDecimal c = false ∧ c ≠ '.' ∧ c ≠ '%' ∧ c ≠ '\n')
    ⟨fun ⟨h1, h2, h3, h4, h5⟩ => ⟨h1, h2, h3, h4, h5⟩,
      fun h => ⟨h.not_flag, h.not_decimal, h.ne_point, h.ne_percent, h.ne_lineEnd⟩⟩

theorem endsOptions_of_supported {c : Char} (h : (family? c).isSome = true) : EndsOptions c := by
  have hall : ∀ d ∈ "sdiuoxXeEfgGc".toList, EndsOptions d :=
    List.forall_iff_forall_mem.1 (by decide)
  refine hall c (Classical.byContradiction fun hmem => ?_)
  simp [family?] at h hmem
  simp [hmem] at h

theorem EndsOptions.not_digit {c : Char} (h : EndsOptions c) : c.isDigit = false := by
  cases hc : c.isDigit with
  | false => rfl
  | true => cases (Number.isDecimal_of_isDigit hc).1.symm.trans h.not_decimal

/-! ## Where the options end -/

theorem isFlag_eq_false_of_isDigit {c : Char} (h : c.isDigit = true) (hne : c ≠ '0') :
    isFlag c = false := by
  have hflag : ∀ d, isFlag d = true → d.isDigit = true → d = '0' := by
    intro d hd
    simp only [isFlag, Bool.or_eq_true, decide_eq_true_eq] at hd
    rcases hd with (((rfl | rfl) | rfl) | rfl) | rfl <;> decide
  cases hc : isFlag c with
  | false => rfl
  | true => exact absurd (hflag c hc h) hne

namespace Specifier

variable (s : Specifier) (rest : List Char)

theorem endsOptions : EndsOptions s.conversion := endsOptions_of_supported s.supported

/-- Behind the places no digit follows. -/
theorem head_behindPlaces :
    ∀ c ∈ (s.conversion :: rest).head?, c.isDigit = false ∧ isDecimal c = false := by
  rintro c ⟨⟩
  exact ⟨s.endsOptions.not_digit, s.endsOptions.not_decimal⟩

/-- Behind the width the point of the places follows, or the conversion. -/
theorem head_pointed {c : Char} (hc : c ∈ (pointed s.places ++ s.conversion :: rest).head?) :
    c = '.' ∨ c = s.conversion := by
  cases hplaces : s.places with
  | none =>
    rw [hplaces] at hc
    cases hc
    exact .inr rfl
  | some ds =>
    rw [hplaces] at hc
    cases hc
    exact .inl rfl

/-- Behind the width no digit follows. -/
theorem head_behindWidth :
    ∀ c ∈ (pointed s.places ++ s.conversion :: rest).head?,
      c.isDigit = false ∧ isDecimal c = false := by
  intro c hc
  rcases s.head_pointed rest hc with rfl | rfl
  · decide
  · exact ⟨s.endsOptions.not_digit, s.endsOptions.not_decimal⟩

/-- Behind the flags no flag follows. -/
theorem head_behindFlags :
    ∀ c ∈ (s.width ++ (pointed s.places ++ s.conversion :: rest)).head?, isFlag c = false := by
  intro c hc
  cases hwidth : s.width with
  | nil =>
    rw [hwidth] at hc
    rcases s.head_pointed rest hc with rfl | rfl
    · rfl
    · exact s.endsOptions.not_flag
  | cons d ds =>
    rw [hwidth] at hc
    cases hc
    have hne : c ≠ '0' := by
      rintro rfl
      exact s.head_ne_zero (by rw [hwidth]; rfl)
    exact isFlag_eq_false_of_isDigit (s.isDigit_of_mem c (hwidth ▸ List.mem_cons_self)) hne

theorem options_append :
    s.options ++ s.conversion :: rest =
      s.flags ++ (s.width ++ (pointed s.places ++ s.conversion :: rest)) := by
  simp only [options, List.append_assoc]

theorem isDecimal_of_mem : ∀ c ∈ s.width, isDecimal c = true :=
  fun c hc => (Number.isDecimal_of_isDigit (s.isDigit_of_mem c hc)).1

/-! ## The two readers -/

/-- The scan for conversions skips the options. -/
theorem skipOptions_eq :
    skipOptions (s.options ++ s.conversion :: rest) = s.conversion :: rest := by
  have hflags := dropWhile_of_run s.isFlag_of_mem (s.head_behindFlags rest)
  have hwidth := dropWhile_of_run s.isDecimal_of_mem fun c hc => (s.head_behindWidth rest c hc).2
  rw [skipOptions, options_append, hflags, hwidth]
  cases hplaces : s.places with
  | none =>
    rw [pointed, List.nil_append]
    split
    · rename_i heq
      exact absurd (List.cons.inj heq).1 s.endsOptions.ne_point
    · rfl
  | some ds =>
    have hdecimal : ∀ c ∈ ds, isDecimal c = true :=
      fun c hc => (Number.isDecimal_of_isDigit (s.isDigit_of_mem_places ds hplaces c hc)).1
    exact dropWhile_of_run hdecimal fun c hc => (s.head_behindPlaces rest c hc).2

/-- The number that is read where digits stand. -/
theorem readCount_append {digits : List Char} (hdigits : ∀ c ∈ digits, c.isDigit = true)
    {more : List Char} (hmore : ∀ c ∈ more.head?, c.isDigit = false) :
    readCount (digits ++ more) =
      (if digits.isEmpty then none else some (Number.ofDigits digits), more) := by
  rw [readCount, takeWhile_of_run hdigits hmore, dropWhile_of_run hdigits hmore]

theorem readPrecision_eq :
    readPrecision (pointed s.places ++ s.conversion :: rest) =
      (s.places.map Number.ofDigits, s.conversion :: rest) := by
  cases hplaces : s.places with
  | none =>
    rw [pointed, List.nil_append, readPrecision]
    · rfl
    · exact fun _ heq => s.endsOptions.ne_point (List.cons.inj heq).1
  | some ds =>
    rw [pointed, List.cons_append, readPrecision,
      readCount_append (s.isDigit_of_mem_places ds hplaces) fun c hc =>
        (s.head_behindPlaces rest c hc).1]
    cases ds <;> rfl

/-- The reader of directives finds the directive that the specifier describes. -/
theorem read_eq (h : s.WithinLimits) :
    Directive.read (s.options ++ s.conversion :: rest) = .ok (s.directive, rest) := by
  have htake := takeWhile_of_run s.isFlag_of_mem (s.head_behindFlags rest)
  have hdrop := dropWhile_of_run s.isFlag_of_mem (s.head_behindFlags rest)
  have hcount := readCount_append s.isDigit_of_mem fun c hc => (s.head_behindWidth rest c hc).1
  rw [Directive.read, options_append, htake, hdrop, hcount]
  simp only [s.readPrecision_eq rest]
  exact (if_neg (Nat.not_lt.2 h.width_le)).trans (if_neg (Nat.not_lt.2 h.precision_le))

/-- A specifier begins with no percent sign of a pair. -/
theorem options_ne_percent (more : List Char) :
    s.options ++ s.conversion :: rest ≠ '%' :: more := by
  intro heq
  have hpercent : skipOptions ('%' :: more) = '%' :: more := by
    have hdecimal : isDecimal '%' = false := by decide
    simp [skipOptions, isFlag, hdecimal]
  have hskip := s.skipOptions_eq rest
  rw [heq, hpercent] at hskip
  exact s.endsOptions.ne_percent (List.cons.inj hskip).1.symm

/-- Places and a conversion can be told apart. -/
theorem places_eq_of_append {s s' : Specifier} {rest rest' : List Char}
    (h : pointed s.places ++ s.conversion :: rest = pointed s'.places ++ s'.conversion :: rest') :
    s.places = s'.places ∧ s.conversion :: rest = s'.conversion :: rest' := by
  cases hplaces : s.places with
  | none =>
    cases hplaces' : s'.places with
    | none =>
      rw [hplaces, hplaces'] at h
      exact ⟨rfl, h⟩
    | some ds =>
      rw [hplaces, hplaces'] at h
      exact absurd (List.cons.inj h).1 s.endsOptions.ne_point
  | some ds =>
    cases hplaces' : s'.places with
    | none =>
      rw [hplaces, hplaces'] at h
      exact absurd (List.cons.inj h).1.symm s'.endsOptions.ne_point
    | some ds' =>
      rw [hplaces, hplaces'] at h
      have hbehind : ds ++ s.conversion :: rest = ds' ++ s'.conversion :: rest' :=
        (List.cons.inj h).2
      have htake := congrArg (List.takeWhile Char.isDigit) hbehind
      rw [takeWhile_of_run (s.isDigit_of_mem_places ds hplaces) fun c hc =>
          (s.head_behindPlaces rest c hc).1,
        takeWhile_of_run (s'.isDigit_of_mem_places ds' hplaces') fun c hc =>
          (s'.head_behindPlaces rest' c hc).1] at htake
      rw [htake] at hbehind
      exact ⟨congrArg some htake, List.append_cancel_left hbehind⟩

/-- Two specifiers that are written alike are the same. -/
theorem eq_of_append {s s' : Specifier} {rest rest' : List Char}
    (h : s.options ++ s.conversion :: rest = s'.options ++ s'.conversion :: rest') :
    s = s' ∧ rest = rest' := by
  -- Each part is a run that ends where the next one begins, so the parts agree one by one.
  simp only [options_append] at h
  have hflags := congrArg (List.takeWhile isFlag) h
  rw [takeWhile_of_run s.isFlag_of_mem (s.head_behindFlags rest),
    takeWhile_of_run s'.isFlag_of_mem (s'.head_behindFlags rest')] at hflags
  rw [hflags] at h
  have hbehind := List.append_cancel_left h
  have hwidth := congrArg (List.takeWhile Char.isDigit) hbehind
  rw [takeWhile_of_run s.isDigit_of_mem fun c hc => (s.head_behindWidth rest c hc).1,
    takeWhile_of_run s'.isDigit_of_mem fun c hc => (s'.head_behindWidth rest' c hc).1] at hwidth
  rw [hwidth] at hbehind
  obtain ⟨hplaces, hend⟩ := places_eq_of_append (List.append_cancel_left hbehind)
  obtain ⟨hconversion, hrest⟩ := List.cons.inj hend
  exact ⟨Specifier.ext hflags hwidth hplaces hconversion, hrest⟩

end Specifier

/-! ## Pieces -/

/-- A character that stands for itself, or a specifier. -/
inductive Piece where
  | literal (c : Char)
  | specifier (s : Specifier)

namespace Piece

/-- A piece as it is written. -/
def written : Piece → List Char
  | literal c => if c = '%' then ['%', '%'] else [c]
  | specifier s => '%' :: (s.options ++ [s.conversion])

def specifier? : Piece → Option Specifier
  | literal _ => none
  | specifier s => some s

end Piece

/-- The text of a format. -/
def written (ps : List Piece) : List Char := ps.flatMap Piece.written

/-- The specifiers of a format, in order. -/
def specifiers (ps : List Piece) : List Specifier := ps.filterMap Piece.specifier?

theorem written_cons (p : Piece) (ps : List Piece) : written (p :: ps) = p.written ++ written ps :=
  List.flatMap_cons

theorem written_specifier_append (s : Specifier) (rest : List Char) :
    (Piece.specifier s).written ++ rest = '%' :: (s.options ++ s.conversion :: rest) := by
  simp [Piece.written]

/-- A text begins with one piece at most. -/
theorem Piece.eq_of_append {p p' : Piece} {rest rest' : List Char}
    (h : p.written ++ rest = p'.written ++ rest') : p = p' ∧ rest = rest' := by
  have happart : ∀ (c : Char) (s : Specifier) (rest rest' : List Char),
      (literal c).written ++ rest ≠ (specifier s).written ++ rest' := by
    intro c s rest rest' heq
    rw [written_specifier_append, written] at heq
    split at heq
    · exact s.options_ne_percent rest' rest (List.cons.inj heq).2.symm
    · rename_i hc
      exact hc (List.cons.inj heq).1
  cases p with
  | literal c =>
    cases p' with
    | literal c' =>
      simp only [written] at h
      split at h <;> split at h
      · rename_i hc hc'
        exact ⟨by rw [hc, hc'], List.append_cancel_left h⟩
      · rename_i hc hc'
        exact absurd (List.cons.inj h).1.symm hc'
      · rename_i hc hc'
        exact absurd (List.cons.inj h).1 hc
      · obtain ⟨rfl, hrest⟩ := List.cons.inj h
        exact ⟨rfl, hrest⟩
    | specifier s => exact absurd h (happart c s rest rest')
  | specifier s =>
    cases p' with
    | literal c => exact absurd h.symm (happart c s rest' rest)
    | specifier s' =>
      rw [written_specifier_append, written_specifier_append] at h
      obtain ⟨rfl, hrest⟩ := Specifier.eq_of_append (List.cons.inj h).2
      exact ⟨rfl, hrest⟩

theorem Piece.written_ne_nil (p : Piece) : p.written ≠ [] := by
  cases p with
  | literal c =>
    rw [written]
    split <;> exact List.cons_ne_nil _ _
  | specifier s => exact List.cons_ne_nil _ _

/-- A text is a format in one way at most. -/
theorem written_injective {ps ps' : List Piece} (h : written ps = written ps') : ps = ps' := by
  induction ps generalizing ps' with
  | nil =>
    cases ps' with
    | nil => rfl
    | cons p ps' =>
      rw [written_cons] at h
      exact absurd (List.append_eq_nil_iff.1 h.symm).1 p.written_ne_nil
  | cons p ps ih =>
    cases ps' with
    | nil =>
      rw [written_cons] at h
      exact absurd (List.append_eq_nil_iff.1 h).1 p.written_ne_nil
    | cons p' ps' =>
      rw [written_cons, written_cons] at h
      obtain ⟨rfl, hrest⟩ := Piece.eq_of_append h
      rw [ih hrest]

/-! ## The scan on a format -/

theorem conversions_literal (c : Char) (rest : List Char) :
    conversions ((Piece.literal c).written ++ rest) = conversions rest := by
  rw [Piece.written]
  split
  · show conversions ('%' :: '%' :: rest) = _
    rw [conversions]
  · rename_i hc
    show conversions (c :: rest) = _
    rw [conversions]
    · exact fun _ h _ => hc h
    · exact hc

theorem conversions_specifier (s : Specifier) (rest : List Char) :
    conversions ((Piece.specifier s).written ++ rest) = s.conversion :: conversions rest := by
  rw [written_specifier_append, conversions]
  · split
    · rename_i heq
      rw [s.skipOptions_eq rest] at heq
      cases heq
    · rename_i heq
      rw [s.skipOptions_eq rest] at heq
      obtain ⟨rfl, rfl⟩ := List.cons.inj heq
      rw [if_neg s.endsOptions.ne_lineEnd]
  · exact fun more heq => s.options_ne_percent rest more heq

/-- The scan finds the conversions of a format in order. -/
theorem conversions_written (ps : List Piece) :
    conversions (written ps) = (specifiers ps).map Specifier.conversion := by
  induction ps with
  | nil =>
    show conversions [] = []
    rw [conversions]
  | cons p ps ih =>
    rw [written_cons]
    cases p with
    | literal c => rw [conversions_literal, ih]; rfl
    | specifier s => rw [conversions_specifier, ih]; rfl

/-! ## Texts that are formats -/

/-- The options at the beginning of a text, in which digits may be those of any script. -/
theorem exists_options (cs : List Char) :
    ∃ flags width places, cs = flags ++ (width ++ (pointed places ++ skipOptions cs)) ∧
      (∀ c ∈ flags, isFlag c = true) ∧ (∀ c ∈ width, isDecimal c = true) ∧
      (∀ c ∈ width.head?, isFlag c = false) ∧ ∀ ds ∈ places, ∀ c ∈ ds, isDecimal c = true := by
  -- A zero is a flag as well, but the width begins only where the flags end.
  have hhead : ∀ c ∈ ((cs.dropWhile isFlag).takeWhile isDecimal).head?, isFlag c = false := by
    intro c hc
    refine @eq_false_of_mem_head?_dropWhile isFlag cs c ?_
    cases htail : cs.dropWhile isFlag with
    | nil =>
      rw [htail] at hc
      cases hc
    | cons d rest =>
      rw [htail, List.takeWhile_cons] at hc
      split at hc
      · exact hc
      · cases hc
  obtain ⟨places, hplaces, hdecimal⟩ : ∃ places,
      (cs.dropWhile isFlag).dropWhile isDecimal = pointed places ++ skipOptions cs ∧
        ∀ ds ∈ places, ∀ c ∈ ds, isDecimal c = true := by
    unfold skipOptions
    split
    · rename_i rest heq
      refine ⟨some (rest.takeWhile isDecimal), ?_, ?_⟩
      · rw [pointed, List.cons_append, List.takeWhile_append_dropWhile, heq]
      · rintro ds ⟨⟩ c hc
        exact List.mem_takeWhile_imp hc
    · refine ⟨none, rfl, ?_⟩
      intro ds hds
      cases hds
  refine ⟨cs.takeWhile isFlag, (cs.dropWhile isFlag).takeWhile isDecimal, places, ?_,
    fun c hc => List.mem_takeWhile_imp hc, fun c hc => List.mem_takeWhile_imp hc, hhead, hdecimal⟩
  rw [← hplaces, List.takeWhile_append_dropWhile, List.takeWhile_append_dropWhile]

theorem skipOptions_suffix (cs : List Char) : skipOptions cs <:+ cs := by
  obtain ⟨flags, width, places, hcs, -⟩ := exists_options cs
  refine ⟨flags ++ (width ++ pointed places), ?_⟩
  rw [List.append_assoc, List.append_assoc]
  exact hcs.symm

/-- If the options are never ended, there is nothing else. -/
theorem not_endsOptions_of_skipOptions {cs : List Char} (h : skipOptions cs = []) :
    ∀ c ∈ cs, ¬ EndsOptions c := by
  obtain ⟨flags, width, places, hcs, hflags, hwidth, -, hplaces⟩ := exists_options cs
  rw [h, List.append_nil] at hcs
  intro c hc hends
  rw [hcs] at hc
  rcases List.mem_append.1 hc with hc | hc
  · cases (hflags c hc).symm.trans hends.not_flag
  · rcases List.mem_append.1 hc with hc | hc
    · cases (hwidth c hc).symm.trans hends.not_decimal
    · cases places with
      | none => cases hc
      | some ds =>
        rcases List.mem_cons.1 hc with rfl | hc
        · exact hends.ne_point rfl
        · cases (hplaces ds rfl c hc).symm.trans hends.not_decimal

/-- The text stands on one line and has no digits of other scripts. -/
structure Plain (cs : List Char) : Prop where
  no_lineEnd : '\n' ∉ cs
  isDigit_of_isDecimal : ∀ c ∈ cs, isDecimal c = true → c.isDigit = true

theorem Plain.of_suffix {cs rest : List Char} (h : Plain cs) (hrest : rest <:+ cs) : Plain rest :=
  ⟨fun hmem => h.no_lineEnd (hrest.subset hmem),
    fun c hc => h.isDigit_of_isDecimal c (hrest.subset hc)⟩

/-- Where the scan finds a conversion that is supported, there is a specifier, if the digits are
plain. -/
theorem exists_specifier {cs : List Char} (hplain : Plain cs) {c : Char} {after : List Char}
    (h : skipOptions cs = c :: after) (hc : (family? c).isSome = true) :
    ∃ s : Specifier, s.conversion = c ∧ cs = s.options ++ s.conversion :: after := by
  obtain ⟨flags, width, places, hcs, hflags, hwidth, hhead, hplaces⟩ := exists_options cs
  have hmem : ∀ {d}, d ∈ width ∨ d ∈ pointed places → d ∈ cs := by
    intro d hd
    rw [hcs, List.mem_append, List.mem_append, List.mem_append]
    tauto
  have hzero : width.head? ≠ some '0' := by
    intro hsome
    cases hhead '0' hsome
  refine ⟨⟨flags, width, places, c, hflags, ?_, hzero, ?_, hc⟩, rfl, ?_⟩
  · exact fun d hd => hplain.isDigit_of_isDecimal d (hmem (.inl hd)) (hwidth d hd)
  · rintro ds rfl d hd
    exact hplain.isDigit_of_isDecimal d (hmem (.inr (List.mem_cons_of_mem '.' hd)))
      (hplaces ds rfl d hd)
  · rw [Specifier.options_append, ← h]
    exact hcs

/-- The text does not end in a percent sign of no pair. -/
def PercentsPaired (cs : List Char) : Prop := (cs.rtakeWhile (· = '%')).length % 2 = 0

instance (cs : List Char) : Decidable (PercentsPaired cs) := inferInstanceAs (Decidable (_ = _))

theorem percentsPaired_append {c : Char} (hc : c ≠ '%') (front rest : List Char) :
    PercentsPaired (front ++ c :: rest) ↔ PercentsPaired rest := by
  rw [PercentsPaired, length_rtakeWhile_append (decide_eq_false hc), ← PercentsPaired]

theorem percentsPaired_pair (rest : List Char) :
    PercentsPaired ('%' :: '%' :: rest) ↔ PercentsPaired rest := by
  have hle := length_rtakeWhile_le (p := (· = '%')) rest
  simp only [PercentsPaired, length_rtakeWhile_cons, List.length_cons, decide_true, true_and]
  split_ifs <;> omega

/-- A plain text whose percent signs at the end come in pairs and whose conversions are supported is
a format. -/
theorem exists_pieces {cs : List Char} (hplain : Plain cs) (hpaired : PercentsPaired cs)
    (hsupported : ∀ c ∈ conversions cs, (family? c).isSome = true) :
    ∃ ps, written ps = cs := by
  fun_induction conversions cs with
  | case1 => exact ⟨[], rfl⟩
  | case2 rest ih =>
    obtain ⟨ps, rfl⟩ := ih (hplain.of_suffix ⟨['%', '%'], rfl⟩)
      ((percentsPaired_pair rest).1 hpaired) hsupported
    exact ⟨.literal '%' :: ps, rfl⟩
  | case3 rest hpair hskip =>
    -- The scan takes the last option for the conversion, but no option is one that is supported.
    cases hlast : rest.getLast? with
    | none =>
      rw [List.getLast?_eq_none_iff.1 hlast] at hpaired
      exact absurd hpaired (by decide)
    | some c =>
      have hc := hsupported c (by rw [hlast]; exact List.mem_singleton_self c)
      exact absurd (endsOptions_of_supported hc)
        (not_endsOptions_of_skipOptions hskip c (List.mem_of_getLast? hlast))
  | case4 rest hpair after hskip ih =>
    have hmem : '\n' ∈ rest := (hskip ▸ skipOptions_suffix rest).subset List.mem_cons_self
    exact absurd (List.mem_cons_of_mem '%' hmem) hplain.no_lineEnd
  | case5 rest hpair c after hskip hc ih =>
    obtain ⟨s, rfl, rfl⟩ := exists_specifier (hplain.of_suffix ⟨['%'], rfl⟩) hskip
      (hsupported _ List.mem_cons_self)
    have hafter :=
      (percentsPaired_append s.endsOptions.ne_percent ('%' :: s.options) after).1 hpaired
    obtain ⟨ps, rfl⟩ := ih (hplain.of_suffix ⟨'%' :: (s.options ++ [s.conversion]), by simp⟩) hafter
      fun d hd => hsupported d (List.mem_cons_of_mem _ hd)
    exact ⟨.specifier s :: ps, (written_cons _ ps).trans (written_specifier_append s _)⟩
  | case6 c rest hpair hc ih =>
    obtain ⟨ps, rfl⟩ := ih (hplain.of_suffix ⟨[c], rfl⟩)
      ((percentsPaired_append hc [] rest).1 hpaired) hsupported
    have hwritten : (Piece.literal c).written = [c] := if_neg hc
    exact ⟨.literal c :: ps, by rw [written_cons, hwritten]; rfl⟩

end Tickle.Format
