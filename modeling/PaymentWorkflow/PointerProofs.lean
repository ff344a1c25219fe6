import PaymentWorkflow.WorkerCore
import PaymentWorkflow.Runs

/-! What a pointer names, whichever way its segments are escaped. -/

namespace PaymentWorkflow

namespace JsonPointer

def name (segment : List Char) : String := String.ofList (unescape segment)

def names (pointer : String) : List String := (split pointer).map name

theorem name_inj {left right : List Char} (same : name left = name right) :
    unescape left = unescape right := String.ofList_injective same

/-! A segment holds no slash, so unescaping joins two segments only where both hold a tilde. -/

theorem splitFrom_segments {text : List Char} : ∀ {segment : List Char}, '/' ∉ segment →
    ∀ part ∈ splitFrom segment text, '/' ∉ part := by
  induction text with
  | nil =>
      intro segment plain part member
      simp only [splitFrom] at member
      split at member
      · cases member
      · rw [List.mem_singleton.mp member, List.mem_reverse]
        exact plain
  | cons char rest ih =>
      intro segment plain part member
      simp only [splitFrom] at member
      split at member
      · split at member
        · exact ih List.not_mem_nil part member
        · rcases List.mem_cons.mp member with rfl | later
          · rw [List.mem_reverse]
            exact plain
          · exact ih List.not_mem_nil part later
      · rename_i other
        refine ih (fun slash => ?_) part member
        exact (List.mem_cons.mp slash).elim (fun same => other same.symm) plain

theorem split_segments {pointer : String} : ∀ part ∈ split pointer, '/' ∉ part :=
  splitFrom_segments List.not_mem_nil

def Marked (segment : List Char) : Prop := '~' ∈ segment ∨ '/' ∈ segment

theorem marked_cons {char : Char} {rest : List Char} (marked : Marked (char :: rest)) :
    (char = '~' ∨ char = '/') ∨ Marked rest := by
  rcases marked with tilde | slash
  · rcases List.mem_cons.mp tilde with same | later
    · exact .inl (.inl same.symm)
    · exact .inr (.inl later)
  · rcases List.mem_cons.mp slash with same | later
    · exact .inl (.inr same.symm)
    · exact .inr (.inr later)

theorem marked_head {char : Char} {rest : List Char} (mark : char = '~' ∨ char = '/') :
    Marked (char :: rest) := by
  rcases mark with rfl | rfl
  · exact .inl List.mem_cons_self
  · exact .inr List.mem_cons_self

theorem Marked.cons {rest : List Char} (marked : Marked rest) (char : Char) :
    Marked (char :: rest) :=
  marked.imp (List.mem_cons_of_mem _) (List.mem_cons_of_mem _)

theorem replaceEscape_marked {code replacement : Char}
    (mark : replacement = '~' ∨ replacement = '/') {segment : List Char} :
    Marked segment → Marked (replaceEscape code replacement segment) := by
  induction segment using replaceEscape.induct code with
  | case1 => exact id
  | case2 => exact id
  | case3 char next rest escape _ =>
      intro _
      simp only [replaceEscape, escape, and_self, if_true]
      exact marked_head mark
  | case4 char next rest plain ih =>
      intro marked
      simp only [replaceEscape, plain, if_false]
      rcases marked_cons marked with here | later
      · exact marked_head here
      · exact (ih later).cons char

theorem replaceEscape_plain {code replacement : Char} {segment : List Char} :
    '~' ∉ segment → replaceEscape code replacement segment = segment := by
  induction segment using replaceEscape.induct code with
  | case1 => exact fun _ => rfl
  | case2 => exact fun _ => rfl
  | case3 char next rest escape _ =>
      intro plain
      exact absurd (escape.1 ▸ List.mem_cons_self) plain
  | case4 char next rest other ih =>
      intro plain
      simp only [replaceEscape, other, if_false]
      rw [ih fun later => plain (List.mem_cons_of_mem _ later)]

theorem unescape_plain {segment : List Char} (plain : '~' ∉ segment) :
    unescape segment = segment := by
  rw [unescape, replaceEscape_plain plain, replaceEscape_plain plain]

theorem unescape_marked {segment : List Char} (tilde : '~' ∈ segment) :
    Marked (unescape segment) :=
  replaceEscape_marked (.inl rfl) (replaceEscape_marked (.inr rfl) (.inl tilde))

theorem unescape_eq {left right : List Char} (leftPart : '/' ∉ left) (rightPart : '/' ∉ right)
    (same : unescape left = unescape right) : left = right ∨ ('~' ∈ left ∧ '~' ∈ right) := by
  have unmarked : ∀ {segment : List Char}, '/' ∉ segment → '~' ∉ segment →
      ¬ Marked (unescape segment) := by
    intro segment part plain
    rw [unescape_plain plain]
    exact fun marked => marked.elim plain part
  by_cases leftTilde : '~' ∈ left <;> by_cases rightTilde : '~' ∈ right
  · exact .inr ⟨leftTilde, rightTilde⟩
  · exact absurd (same ▸ unescape_marked leftTilde) (unmarked rightPart rightTilde)
  · exact absurd (same ▸ unescape_marked rightTilde) (unmarked leftPart leftTilde)
  · rw [unescape_plain leftTilde, unescape_plain rightTilde] at same
    exact .inl same

/-! No index is spelled with a tilde. -/

theorem mem_dropWhile {char : Char} {drops : Char → Bool} (stays : drops char = false)
    {chars : List Char} (member : char ∈ chars) : char ∈ chars.dropWhile drops := by
  induction chars with
  | nil => cases member
  | cons head rest ih =>
      rw [List.dropWhile_cons]
      split
      · rename_i dropped
        rcases List.mem_cons.mp member with rfl | later
        · rw [stays] at dropped
          cases dropped
        · exact ih later
      · exact member

section Marks

variable {mark : Char} {chars : List Char}

theorem digitsValue_mark (markDigit : mark.isDigit = false) (member : mark ∈ chars) :
    digitsValue chars = none := by
  unfold digitsValue
  refine if_neg fun digits => ?_
  have digit := List.all_eq_true.mp digits.2 mark member
  rw [markDigit] at digit
  cases digit

/-- A character that is no digit, sign, blank or NUL spoils a number. -/
theorem parsedInt_mark (other : mark = '~' ∨ mark = '/') (member : mark ∈ chars) :
    parsedInt chars = none := by
  have kept : mark ∈ trimmed (chars.reverse.dropWhile fun char => char.toNat = 0).reverse := by
    rw [trimmed, List.mem_reverse]
    refine mem_dropWhile (by rcases other with rfl | rfl <;> decide) (List.mem_reverse.mpr ?_)
    refine mem_dropWhile (by rcases other with rfl | rfl <;> decide) (List.mem_reverse.mpr ?_)
    exact mem_dropWhile (by rcases other with rfl | rfl <;> decide) (List.mem_reverse.mpr member)
  have digit : mark.isDigit = false := by rcases other with rfl | rfl <;> decide
  rw [parsedInt]
  unfold signedChars
  split
  · rename_i rest same
    rw [same] at kept
    rw [digitsValue_mark digit ((List.mem_cons.mp kept).resolve_left
      (by rcases other with rfl | rfl <;> decide))]
    rfl
  · rename_i rest same
    rw [same] at kept
    rw [digitsValue_mark digit ((List.mem_cons.mp kept).resolve_left
      (by rcases other with rfl | rfl <;> decide))]
    rfl
  · rw [digitsValue_mark digit kept]
    rfl

theorem index?_tilde {segment : List Char} (tilde : '~' ∈ segment) (count : Nat) :
    index? segment count = none := by
  rw [index?, parsedInt_mark (.inl rfl) tilde]

theorem parsedInt_unescape (segment : List Char) :
    parsedInt (unescape segment) = parsedInt segment := by
  by_cases tilde : '~' ∈ segment
  · rw [parsedInt_mark (.inl rfl) tilde]
    rcases unescape_marked tilde with left | slash
    · exact parsedInt_mark (.inl rfl) left
    · exact parsedInt_mark (.inr rfl) slash
  · rw [unescape_plain tilde]

end Marks

theorem resolveSegments_congr : ∀ {left right : List (List Char)} (root : Json),
    (∀ part ∈ left, '/' ∉ part) → (∀ part ∈ right, '/' ∉ part) →
    left.map name = right.map name → resolveSegments root left = resolveSegments root right := by
  intro left
  induction left with
  | nil =>
      intro right root _ _ same
      rw [List.map_eq_nil_iff.mp same.symm]
  | cons first rest ih =>
      intro right root leftParts rightParts same
      cases right with
      | nil => cases same
      | cons second others =>
          rw [List.map_cons, List.map_cons, List.cons.injEq] at same
          have texts := name_inj same.1
          have later := fun next => ih next
            (fun part member => leftParts part (List.mem_cons_of_mem _ member))
            (fun part member => rightParts part (List.mem_cons_of_mem _ member)) same.2
          have indices : ∀ count, index? first count = index? second count := by
            intro count
            rcases unescape_eq (leftParts first List.mem_cons_self)
              (rightParts second List.mem_cons_self) texts with equal | ⟨left, right⟩
            · rw [equal]
            · rw [index?_tilde left, index?_tilde right]
          cases root with
          | object members => simp only [resolveSegments, texts, later]
          | array items => simp only [resolveSegments, indices, later]
          | _ => rfl

theorem resolve_split {root : Json} {pointer : String} (some : split pointer ≠ []) :
    resolve root pointer = resolveSegments root (split pointer) := by
  refine if_neg ?_
  rintro (rfl | rfl)
  · exact some rfl
  · exact some rfl

theorem resolve_eq {root : Json} {pointer : String} (present : nonNull root = some root) :
    resolve root pointer = resolveSegments root (split pointer) := by
  unfold resolve
  split
  · rename_i whole
    have none : split pointer = [] := by
      rcases whole with rfl | rfl <;> rfl
    rw [none, resolveSegments, present]
  · rfl

theorem resolve_congr {root : Json} (present : nonNull root = some root) {left right : String}
    (same : names left = names right) : resolve root left = resolve root right := by
  rw [resolve_eq present, resolve_eq present]
  exact resolveSegments_congr root split_segments split_segments same

/-! Writing a member. -/

theorem member?_setMember {key other : String} {value : Json} {members : List (String × Json)} :
    (Json.object (setMember key value members)).member? other =
      if other = key then some value else (Json.object members).member? other := by
  simp only [Json.member?]
  induction members with
  | nil =>
      by_cases same : other = key
      · simp [setMember, same]
      · simp [setMember, same, Ne.symm same]
  | cons entry rest ih =>
      by_cases here : entry.1 = key
      · by_cases same : other = key
        · simp [setMember, here, same]
        · have apart : ¬ key = other := fun equal => same equal.symm
          simp [setMember, here, same, apart]
      · by_cases found : entry.1 = other
        · have apart : ¬ other = key := fun equal => here (found.trans equal)
          simp [setMember, found, apart]
        · simpa [setMember, here, found] using ih

theorem set_single {members : List (String × Json)} {pointer : String} {segment : List Char}
    (value : Json) (single : split pointer = [segment]) :
    set (.object members) pointer value = .ok (.object (setMember (name segment) value members)) := by
  have whole : pointer ≠ "/" := by
    rintro rfl
    cases single
  simp only [set, whole, if_false, single, setSegments]
  rfl

theorem set_ok {root changed value : Json} {pointer : String}
    (written : set root pointer value = .ok changed) :
    setSegments value (split pointer) root = .ok changed ∧ split pointer ≠ [] := by
  unfold set at written
  split at written
  · cases written
  · refine ⟨written, fun none => ?_⟩
    rw [none, setSegments] at written
    cases written

theorem setSegments_missing {members : List (String × Json)} {first second : List Char}
    {rest : List (List Char)} {value : Json}
    (missing : (Json.object members).member? (name first) = none) :
    setSegments value (first :: second :: rest) (.object members) = .error .refused := by
  simp only [setSegments]
  rw [show (Json.object members).member? (String.ofList (unescape first)) = none from missing]

theorem resolve_first {members : List (String × Json)} {pointer : String} {first : List Char}
    {rest : List (List Char)} (segments : split pointer = first :: rest) :
    resolve (.object members) pointer =
      ((Json.object members).member? (name first)).bind fun next => resolveSegments next rest := by
  rw [resolve_eq rfl, segments, resolveSegments]
  rfl

end JsonPointer

end PaymentWorkflow
