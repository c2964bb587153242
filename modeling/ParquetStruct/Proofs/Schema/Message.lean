/-
# ParquetStruct.Proofs.Schema.Message — an error can be told from its message.

A message opens with words for the kind of the error, goes on with the path between brackets, and
closes with what is wrong with the layout, if that is what the error is about.  The opening holds no
bracket, so the path starts at the first one.  Where the path ends is another matter: a path with a
name that holds a bracket or a dot may be shown as a different path is.  `IsPlain` rules this out,
and then the message has these three parts in one way only, whatever raw names the closing quotes.
-/
import ParquetStruct.Proofs.Text.Decimal
import ParquetStruct.Proofs.Text.Line
import ParquetStruct.Schema.Error

namespace ParquetStruct

open Text

variable {p q : FieldPath}

/-! ## Paths -/

namespace FieldPath

/-- A path that no other such path is shown as: it has at least one name, and in its names there are
neither dots nor closing brackets. -/
structure IsPlain (p : FieldPath) : Prop where
  ne_nil : p.segments ≠ []
  noDot : ∀ s ∈ p.segments, '.' ∉ s.toList
  noBracket : ∀ s ∈ p.segments, ']' ∉ s.toList

/-- The names of a path, with dots between them. -/
def dotted (p : FieldPath) : List Char := ['.'].intercalate (p.segments.map String.toList)

theorem toList_display (p : FieldPath) : p.display.toList = '[' :: (p.dotted ++ [']']) := by
  simp [display, dotted, String.toList_intercalate]

theorem IsPlain.not_mem_dotted (h : p.IsPlain) : ']' ∉ p.dotted := by
  intro hmem
  rcases mem_intercalate hmem with hdot | ⟨cs, hcs, hmem⟩
  · exact absurd hdot (by decide)
  · obtain ⟨s, hs, rfl⟩ := List.mem_map.mp hcs
    exact h.noBracket s hs hmem

/-- Cutting at the dots gives the names back. -/
theorem IsPlain.splitOn_dotted (h : p.IsPlain) :
    p.dotted.splitOn '.' = p.segments.map String.toList := by
  apply List.splitOn_intercalate
  · exact List.forall_mem_map.mpr h.noDot
  · exact mt List.map_eq_nil_iff.mp h.ne_nil

theorem eq_of_dotted_eq (hp : p.IsPlain) (hq : q.IsPlain) (h : p.dotted = q.dotted) : p = q := by
  have hsegments : p.segments.map String.toList = q.segments.map String.toList := by
    rw [← hp.splitOn_dotted, h, hq.splitOn_dotted]
  have hinjective : Function.Injective String.toList := fun _ _ => String.toList_inj.mp
  exact congrArg FieldPath.mk (List.map_injective_iff.mpr hinjective hsegments)

-- A name with a dot in it is shown as two names are.
example : (FieldPath.mk ["a.b"]).display = (FieldPath.mk ["a", "b"]).display := by decide

end FieldPath

/-! ## Layout faults -/

/-- What is wrong with a layout is worded in one way for each fault, whatever name it quotes. -/
theorem LayoutFault.detail_injective {f g : LayoutFault} (h : f.detail = g.detail) : f = g := by
  cases f <;> cases g
  case childCount.childCount found found' =>
    have hfound : toString found = toString found' := (String.append_right_inj _).mp h
    rw [toString_nat_injective hfound]
  case notRepeated.notRepeated child child' =>
    have hchild := (String.append_right_inj _).mp ((String.append_left_inj _).mp h)
    rw [hchild]
  case entryCount.entryCount child found child' found' =>
    -- The number stands after the last space, and the name before it between fixed words.
    have hchars : ("group `" ++ child ++ "` expected 2 children, found").toList ++
          ' ' :: (toString found).toList =
        ("group `" ++ child' ++ "` expected 2 children, found").toList ++
          ' ' :: (toString found').toList := by
      dsimp only [detail] at h
      simpa using congrArg String.toList h
    obtain ⟨hname, hfound⟩ := append_cons_inj_right (not_mem_toString_nat (by decide) found)
      (not_mem_toString_nat (by decide) found') hchars
    rw [String.toList_inj, String.append_left_inj, String.append_right_inj] at hname
    rw [hname, toString_nat_injective (String.toList_inj.mp hfound)]
  -- Two faults of different kinds are worded differently within the first seven characters.
  all_goals
    dsimp only [detail] at h
    simp [← String.toList_inj] at h

theorem Container.name_injective {c d : Container} (h : c.name = d.name) : c = d := by
  cases c with
  | list =>
    cases d with
    | list => rfl
    | map => exact absurd h (by decide)
  | map =>
    cases d with
    | list => exact absurd h (by decide)
    | map => rfl

/-! ## The parts of a message -/

namespace SchemaError

variable {e e' : SchemaError}

/-- What stands before the path. -/
def opening : SchemaError → String
  | .typeNotSet _ => "type not set in field "
  | .unknownPhysicalType code _ => "unknown type: " ++ toString code.toInt ++ " in field "
  | .compositeMapKey _ => "go struct does not support composite type as map key in field "
  | .compositeMapValue _ => "go struct does not support composite type as map value in field "
  | .compositeListElement _ =>
    "go struct does not support composite type as list element in field "
  | .malformedContainer container _ _ => "malformed " ++ container.name ++ " in field "
  | .depthExceeded maxDepth _ =>
    "schema nesting exceeds " ++ toString maxDepth ++ " levels in field "

/-- What stands after the path. -/
def closing : SchemaError → String
  | .malformedContainer _ _ fault => ": " ++ fault.detail
  | _ => ""

theorem message_eq (e : SchemaError) : e.message = e.opening ++ e.path.display ++ e.closing := by
  cases e with
  | malformedContainer container p fault => exact String.append_assoc
  | _ => exact String.append_empty.symm

theorem toList_message (e : SchemaError) :
    e.message.toList =
      e.opening.toList ++ '[' :: (e.path.dotted ++ ']' :: e.closing.toList) := by
  rw [message_eq, String.toList_append, String.toList_append, FieldPath.toList_display]
  simp

/-- The first bracket of a message is the one before the path. -/
theorem bracket_not_mem_opening (e : SchemaError) : '[' ∉ e.opening.toList := by
  cases e with
  | unknownPhysicalType code _ =>
    have hcode := not_mem_toString_int (c := '[') (by decide) (by decide) code.toInt
    dsimp only [opening]
    simpa using hcode
  | depthExceeded maxDepth _ =>
    have hdepth := not_mem_toString_nat (c := '[') (by decide) maxDepth
    dsimp only [opening]
    simpa using hdepth
  | malformedContainer container _ _ =>
    dsimp only [opening]
    cases container <;> simp only [Container.name] <;> simp
  | _ =>
    dsimp only [opening]
    simp

/-- Messages about plain paths have their parts in common. -/
theorem parts_eq_of_message_eq (hp : e.path.IsPlain) (hp' : e'.path.IsPlain)
    (h : e.message = e'.message) :
    e.opening = e'.opening ∧ e.path = e'.path ∧ e.closing = e'.closing := by
  have hchars := congrArg String.toList h
  rw [toList_message, toList_message] at hchars
  obtain ⟨hopening, hrest⟩ :=
    append_cons_inj (bracket_not_mem_opening e) (bracket_not_mem_opening e') hchars
  obtain ⟨hdotted, hclosing⟩ := append_cons_inj hp.not_mem_dotted hp'.not_mem_dotted hrest
  exact ⟨String.toList_inj.mp hopening, FieldPath.eq_of_dotted_eq hp hp' hdotted,
    String.toList_inj.mp hclosing⟩

/-- The parts of a message are those of one error: the opening tells its kind, and the code, the
container or the limit that goes with it. -/
theorem eq_of_parts_eq (hopening : e.opening = e'.opening) (hpath : e.path = e'.path)
    (hclosing : e.closing = e'.closing) : e = e' := by
  cases e <;> cases e'
  case typeNotSet.typeNotSet => exact congrArg typeNotSet hpath
  case unknownPhysicalType.unknownPhysicalType code _ code' _ =>
    have hcode := (String.append_right_inj _).mp ((String.append_left_inj _).mp hopening)
    rw [Int32.toInt_inj.mp (toString_int_injective hcode)]
    exact congrArg (unknownPhysicalType code') hpath
  case compositeMapKey.compositeMapKey => exact congrArg compositeMapKey hpath
  case compositeMapValue.compositeMapValue => exact congrArg compositeMapValue hpath
  case compositeListElement.compositeListElement => exact congrArg compositeListElement hpath
  case malformedContainer.malformedContainer container _ fault container' _ fault' =>
    have hcontainer := (String.append_right_inj _).mp ((String.append_left_inj _).mp hopening)
    have hfault := LayoutFault.detail_injective ((String.append_right_inj _).mp hclosing)
    rw [Container.name_injective hcontainer, hfault]
    exact congrArg (malformedContainer container' · fault') hpath
  case depthExceeded.depthExceeded maxDepth _ maxDepth' _ =>
    have hdepth := (String.append_right_inj _).mp ((String.append_left_inj _).mp hopening)
    rw [toString_nat_injective hdepth]
    exact congrArg (depthExceeded maxDepth') hpath
  -- Errors of different kinds have fixed words in their openings that differ.
  all_goals
    dsimp only [opening] at hopening
    simp [← String.toList_inj] at hopening

/-- Errors at plain paths can be told from their messages. -/
theorem eq_of_message_eq (hp : e.path.IsPlain) (hp' : e'.path.IsPlain)
    (h : e.message = e'.message) : e = e' := by
  obtain ⟨hopening, hpath, hclosing⟩ := parts_eq_of_message_eq hp hp' h
  exact eq_of_parts_eq hopening hpath hclosing

end SchemaError

end ParquetStruct
