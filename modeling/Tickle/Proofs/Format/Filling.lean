import Mathlib.Data.List.Forall2
import Tickle.Proofs.Format.Pieces

/-! # Formats filled in

Where the scan finds only supported conversions and the arguments are in the form that these ask
for, the format is filled in: every specifier is replaced by what it makes of the argument in its
place, and the arguments that are left over are ignored. -/

namespace Tickle.Format

/-! ## Arguments in their form -/

/-- An argument in the form that a conversion asks for, if it can be brought into it. -/
def coerce? (conversion : Char) (text : String) : Option Argument :=
  (family? conversion).bind (Argument.read? · text)

/-- What stands in the place of a specifier, if the argument is in the form that it asks for. -/
def Specifier.replacement? (s : Specifier) (text : String) : Option (List Char) :=
  (coerce? s.conversion text).bind s.directive.apply?

/-- An argument that has the form that the conversion asks for is taken. -/
theorem Specifier.exists_taken (s : Specifier) {text : String}
    (h : (coerce? s.conversion text).isSome = true) :
    ∃ argument out, coerce? s.conversion text = some argument ∧
      s.directive.apply? argument = some out := by
  obtain ⟨family, hfamily⟩ := Option.isSome_iff_exists.1 s.supported
  have hconversion : family? s.directive.conversion = some family := hfamily
  obtain ⟨argument, hargument⟩ := Option.isSome_iff_exists.1 h
  refine ⟨argument, ?_⟩
  have hread : Argument.read? family text = some argument := by
    rwa [coerce?, hfamily, Option.bind_some] at hargument
  cases family with
  | text =>
    cases hread
    simp [hargument, Directive.apply?, hconversion]
  | integer =>
    obtain ⟨n, -, rfl⟩ := Option.map_eq_some_iff.1 hread
    simp [hargument, Directive.apply?, hconversion]
  | real =>
    obtain ⟨x, -, rfl⟩ := Option.map_eq_some_iff.1 hread
    simp [hargument, Directive.apply?, hconversion]
  | character =>
    rw [Argument.read?] at hread
    split at hread
    · cases hread
      simp [hargument, Directive.apply?, hconversion]
    · cases hread

theorem readArguments_cons {conversion : Char} {text : String} {argument : Argument}
    (h : coerce? conversion text = some argument) (conversions : List Char) (texts : List String) :
    readArguments (conversion :: conversions) (text :: texts) =
      (readArguments conversions texts).map (argument :: ·) := by
  rw [coerce?] at h
  rw [readArguments, h]

/-! ## Filling in piece by piece -/

section

variable (size : Nat) (rest : List Char) (arguments : List Argument)

theorem fill_literal (c : Char) :
    fill size ((Piece.literal c).written ++ rest) arguments =
      (fill size rest arguments).map (c :: ·) := by
  rw [Piece.written]
  split
  · rename_i hc
    have hread : Directive.read ('%' :: rest) =
        .ok (⟨false, false, false, false, false, none, none, '%'⟩, rest) := rfl
    show fill size ('%' :: '%' :: rest) arguments = _
    rw [fill, if_neg (not_not.2 rfl)]
    split
    · rename_i heq
      cases hread.symm.trans heq
    · rename_i heq
      cases hread.symm.trans heq
      rw [if_pos rfl, hc]
  · rename_i hc
    show fill size (c :: rest) arguments = _
    rw [fill, if_pos hc]

theorem fill_specifier {s : Specifier} (hlimits : s.WithinLimits) {argument : Argument}
    {out : List Char} (hout : s.directive.apply? argument = some out) :
    fill size ((Piece.specifier s).written ++ rest) (argument :: arguments) =
      (fill size rest arguments).map (out ++ ·) := by
  have hread := s.read_eq rest hlimits
  rw [written_specifier_append, fill, if_neg (not_not.2 rfl)]
  split
  · rename_i heq
    cases hread.symm.trans heq
  · rename_i heq
    cases hread.symm.trans heq
    rw [if_neg (show s.directive.conversion ≠ '%' from s.endsOptions.ne_percent)]
    simp only [hlimits.digits_le, hout]
    rfl

end

/-- A format in which the specifiers are replaced in turn; one for which nothing is left goes. -/
def filled : List Piece → List (List Char) → List Char
  | [], _ => []
  | .literal c :: ps, outs => c :: filled ps outs
  | .specifier _ :: ps, out :: outs => out ++ filled ps outs
  | .specifier _ :: ps, [] => filled ps []

/-- The arguments that the conversions ask for are brought into their form whatever stands behind
them, and the directives take them one by one. -/
theorem exists_filled {ps : List Piece} (hlimits : ∀ s ∈ specifiers ps, s.WithinLimits)
    {arguments : List String}
    (h : List.Forall₂ (fun c argument => (coerce? c argument).isSome = true)
      ((specifiers ps).map Specifier.conversion) arguments) :
    ∃ coerced outs, List.zipWith Specifier.replacement? (specifiers ps) arguments = outs.map some ∧
      (∀ more, readArguments ((specifiers ps).map Specifier.conversion) (arguments ++ more) =
        .ok coerced) ∧
      ∀ size, fill size (written ps) coerced = .ok (filled ps outs) := by
  induction ps generalizing arguments with
  | nil =>
    cases h
    refine ⟨[], [], rfl, fun _ => ?_, fun size => ?_⟩
    · exact readArguments.eq_1 _
    · exact fill.eq_1 size []
  | cons p ps ih =>
    cases p with
    | literal c =>
      obtain ⟨coerced, outs, hzip, hread, hfill⟩ := ih hlimits h
      refine ⟨coerced, outs, hzip, hread, fun size => ?_⟩
      rw [written_cons, fill_literal, hfill]
      rfl
    | specifier s =>
      cases h with
      | @cons _ text _ arguments hcoerce hrest =>
        obtain ⟨argument, out, hargument, hout⟩ := s.exists_taken hcoerce
        have hreplacement : s.replacement? text = some out := by
          rw [Specifier.replacement?, hargument]
          exact hout
        have hs := hlimits s List.mem_cons_self
        obtain ⟨coerced, outs, hzip, hread, hfill⟩ :=
          ih (fun t ht => hlimits t (List.mem_cons_of_mem s ht)) hrest
        refine ⟨argument :: coerced, out :: outs, ?_, fun more => ?_, fun size => ?_⟩
        · exact congrArg₂ List.cons hreplacement hzip
        · refine (readArguments_cons hargument _ _).trans ?_
          exact congrArg (Except.map (argument :: ·)) (hread more)
        · rw [written_cons, fill_specifier size _ _ hs hout, hfill]
          rfl

/-! ## The whole format -/

theorem format_eq_ok {text : String} {arguments : List String} {coerced : List Argument}
    {out : List Char} (hsupported : ∀ c ∈ conversions text.toList, (family? c).isSome = true)
    (hlength : (conversions text.toList).length ≤ arguments.length)
    (hread : readArguments (conversions text.toList) arguments = .ok coerced)
    (hfill : fill text.toList.length text.toList coerced = .ok out) :
    format text arguments = .ok (String.ofList out) := by
  have hfind : (conversions text.toList).find? (fun c => (family? c).isNone) = none := by
    refine List.find?_eq_none.2 fun c hc hnone => ?_
    have hsome := hsupported c hc
    rw [Option.isNone_iff_eq_none.1 hnone] at hsome
    cases hsome
  simp only [format, hfind, if_neg (Nat.not_lt.2 hlength), hread, bind, Except.bind, hfill]
  rfl

/-- Where every conversion that the scan finds is supported, a plain format is made of pieces in one
way. If its widths and precisions are within their limits and the first arguments are in the form
that the conversions ask for, the format is filled in: what stands in the place of a specifier is
made of the argument in its place, whatever arguments are left over. -/
theorem format_applies_in_turn {text : String} (hplain : Plain text.toList)
    (hpaired : PercentsPaired text.toList)
    (hsupported : ∀ c ∈ conversions text.toList, (family? c).isSome = true) :
    ∃ ps : List Piece, (∀ ps', written ps' = text.toList ↔ ps' = ps) ∧
      conversions text.toList = (specifiers ps).map Specifier.conversion ∧
      ((∀ s ∈ specifiers ps, s.WithinLimits) → ∀ arguments : List String,
        List.Forall₂ (fun c argument => (coerce? c argument).isSome = true)
          (conversions text.toList) arguments →
        ∃ outs, List.zipWith Specifier.replacement? (specifiers ps) arguments = outs.map some ∧
          ∀ more, format text (arguments ++ more) = .ok (String.ofList (filled ps outs))) := by
  obtain ⟨ps, htext⟩ := exists_pieces hplain hpaired hsupported
  have hconversions : conversions text.toList = (specifiers ps).map Specifier.conversion :=
    htext ▸ conversions_written ps
  refine ⟨ps, fun ps' => ?_, hconversions, fun hlimits arguments harguments => ?_⟩
  · exact ⟨fun h => written_injective (h.trans htext.symm), fun h => h ▸ htext⟩
  · obtain ⟨coerced, outs, hzip, hread, hfill⟩ := exists_filled hlimits (hconversions ▸ harguments)
    refine ⟨outs, hzip, fun more => ?_⟩
    refine format_eq_ok hsupported ?_ (hconversions ▸ hread more) (htext ▸ hfill _)
    rw [harguments.length_eq, List.length_append]
    exact Nat.le_add_right _ _

/-- A name cut to four characters. -/
def nameSpecifier : Specifier :=
  ⟨['-'], ['6'], some ['4'], 's', by simp [isFlag], by simp, by decide, by simp, by decide⟩

/-- A number with its sign. -/
def numberSpecifier : Specifier :=
  ⟨['+', '0'], ['5'], none, 'd', by simp [isFlag], by simp, by decide, by simp, by decide⟩

/-- A price with two places. -/
def priceSpecifier : Specifier :=
  ⟨[], ['8'], some ['2'], 'f', by simp, by simp, by decide, by simp, by decide⟩

def rowPieces : List Piece :=
  [.specifier nameSpecifier, .literal '%', .specifier numberSpecifier, .specifier priceSpecifier]

theorem format_applies_in_turn_row :
    ∃ price text, coerce? 'f' "2.5" = some (.real price) ∧
      priceSpecifier.directive.apply? (.real price) = some text ∧
      format "%-6.4s%%%+05d%8.2f" ["teapot", "7", "2.5", "left over"] =
        .ok (String.ofList ("teap  %+0007".toList ++ text)) := by
  have htext : written rowPieces = "%-6.4s%%%+05d%8.2f".toList := by decide
  have hconversions : conversions "%-6.4s%%%+05d%8.2f".toList = ['s', 'd', 'f'] :=
    htext ▸ conversions_written rowPieces
  have hsupported : ∀ c ∈ conversions "%-6.4s%%%+05d%8.2f".toList, (family? c).isSome = true := by
    rw [hconversions]
    exact List.forall_iff_forall_mem.1 (by decide)
  obtain ⟨ps, hpieces, -, hformat⟩ := @format_applies_in_turn "%-6.4s%%%+05d%8.2f"
    ⟨by decide, List.forall_iff_forall_mem.1 (by decide)⟩ (by decide) hsupported
  obtain rfl := (hpieces rowPieces).1 htext
  have hlimits : ∀ s ∈ specifiers rowPieces, s.WithinLimits := by decide
  obtain ⟨numeral, hnumeral⟩ : ∃ numeral, Number.Numeral.read? "2.5" = some numeral :=
    Option.isSome_iff_exists.1 (by decide +kernel)
  have hcoerce : coerce? 'f' "2.5" = (Number.Numeral.read? "2.5").map (.real ·.toDouble) := rfl
  have hprice : coerce? 'f' "2.5" = some (.real numeral.toDouble) := by
    rw [hcoerce, hnumeral]
    rfl
  have hcoerced : List.Forall₂ (fun c argument => (coerce? c argument).isSome = true)
      (conversions "%-6.4s%%%+05d%8.2f".toList) ["teapot", "7", "2.5"] := by
    rw [hconversions]
    exact .cons rfl (.cons (by decide) (.cons (by rw [hprice]; rfl) .nil))
  obtain ⟨outs, hzip, hmore⟩ := hformat hlimits ["teapot", "7", "2.5"] hcoerced
  obtain ⟨text, happly⟩ : ∃ text,
      priceSpecifier.directive.apply? (.real numeral.toDouble) = some text := ⟨_, rfl⟩
  have hname : nameSpecifier.replacement? "teapot" = some "teap  ".toList := by decide
  have hnumber : numberSpecifier.replacement? "7" = some "+0007".toList := by decide
  have hreplacement : priceSpecifier.replacement? "2.5" = some text :=
    (congrArg (Option.bind · _) hprice).trans happly
  have hrow : List.zipWith Specifier.replacement? (specifiers rowPieces) ["teapot", "7", "2.5"] =
      ["teap  ".toList, "+0007".toList, text].map some := by
    show [nameSpecifier.replacement? "teapot", numberSpecifier.replacement? "7",
      priceSpecifier.replacement? "2.5"] = _
    rw [hname, hnumber, hreplacement]
    rfl
  have houts : outs = ["teap  ".toList, "+0007".toList, text] :=
    List.map_injective_iff.2 (fun _ _ => Option.some.inj) (hzip.symm.trans hrow)
  have hfilled : filled rowPieces outs = "teap  %+0007".toList ++ text := by
    rw [houts]
    exact congrArg ("teap  %+0007".toList ++ ·) (List.append_nil text)
  rw [hfilled] at hmore
  exact ⟨numeral.toDouble, text, hprice, happly, hmore ["left over"]⟩

end Tickle.Format
