import PaymentWorkflow.YamlCore

/-! Which JSON documents the YAML branch of the loader gives back unchanged. -/

namespace PaymentWorkflow

def IsText (content : String) : Prop :=
  boolTryParse content.toList = none ∧ longTryParse content.toList = none ∧
    doubleTryParse content.toList = none

def NumberLiteral.double (literal : NumberLiteral) : Double :=
  roundedDouble literal.negative literal.digits literal.power
    (literal.power - literal.fraction.length)

def NumberLiteral.Survives (literal : NumberLiteral) : Prop :=
  (longTryParse literal.chars).isSome = true ∨
    FlowMapLoader.writtenDouble literal.double = some literal.value

mutual
theorem Json.depth_le_layers : ∀ value : Json, value.depth ≤ value.layers
  | .array items => Nat.succ_le_succ (itemsDepth_le_layers items)
  | .object members => Nat.succ_le_succ (membersDepth_le_layers members)
  | .null | .bool _ | .number _ | .text _ => Nat.zero_le _
theorem Json.itemsDepth_le_layers : ∀ items : List Json, itemsDepth items ≤ itemsLayers items
  | [] => Nat.le_refl 0
  | item :: rest => by
      have first := depth_le_layers item
      have later := itemsDepth_le_layers rest
      rw [itemsDepth, itemsLayers]
      omega
theorem Json.membersDepth_le_layers : ∀ members : List (String × Json),
    membersDepth members ≤ membersLayers members
  | [] => Nat.le_refl 0
  | (_, value) :: rest => by
      have first := depth_le_layers value
      have later := membersDepth_le_layers rest
      rw [membersDepth, membersLayers]
      omega
end

namespace Document

mutual
/-- No null, no number a double changes, no string another type is read from, no name twice. -/
def Survives : Document → Prop
  | .null => False
  | .bool _ => True
  | .number literal => literal.Survives
  | .text content => IsText content
  | .array items => SurviveItems items
  | .object members => (members.map Prod.fst).Nodup ∧ SurviveMembers members
def SurviveItems : List Document → Prop
  | [] => True
  | item :: rest => Survives item ∧ SurviveItems rest
def SurviveMembers : List (String × Document) → Prop
  | [] => True
  | (_, content) :: rest => Survives content ∧ SurviveMembers rest
end

end Document

/-! Number literals. -/

namespace NumberLiteral

variable (literal : NumberLiteral)

def body : List Char := literal.whole ++ (pointed literal.fraction ++ literal.tail)

theorem chars_eq : literal.chars = (if literal.negative then ['-'] else []) ++ literal.body := by
  rw [chars, body, List.append_assoc]

theorem opens : ∃ first rest, literal.body = first :: rest ∧ first.isDigit = true := by
  cases whole : literal.whole with
  | nil => exact absurd whole literal.filled
  | cons first rest =>
      exact ⟨first, _, by rw [body, whole, List.cons_append],
        literal.wholeDigits first (whole ▸ List.mem_cons_self)⟩

def isMark (char : Char) : Bool :=
  char.isDigit || char = '-' || char = '+' || char = '.' || char = 'e' || char = 'E'

theorem chars_marks : ∀ char ∈ literal.chars, isMark char = true := by
  have digits : ∀ chars : List Char, (∀ char ∈ chars, char.isDigit = true) →
      ∀ char ∈ chars, isMark char = true := by
    intro chars all char member
    simp [isMark, all char member]
  have power : ∀ char ∈ literal.tail, isMark char = true := by
    intro char member
    unfold tail at member
    cases exponent : literal.exponent with
    | none => simp [exponent] at member
    | some part =>
        rw [exponent, Option.map_some, Option.getD_some, ExponentPart.chars, List.cons_append] at member
        rcases List.mem_cons.mp member with rfl | later
        · rcases part.marked with same | same <;> rw [same] <;> rfl
        · rcases List.mem_append.mp later with sign | digit
          · rcases part.signed with same | same | same <;> rw [same] at sign
            · cases sign
            · rw [List.mem_singleton.mp sign]
              rfl
            · rw [List.mem_singleton.mp sign]
              rfl
          · exact digits _ part.isDigits char digit
  intro char member
  rw [chars_eq] at member
  rcases List.mem_append.mp member with sign | inside
  · split at sign
    · rw [List.mem_singleton.mp sign]
      rfl
    · cases sign
  · rcases List.mem_append.mp inside with whole | behind
    · exact digits _ literal.wholeDigits char whole
    · rcases List.mem_append.mp behind with fraction | tail
      · cases behind : literal.fraction with
        | nil => simp [behind, pointed] at fraction
        | cons first rest =>
            rw [behind, pointed] at fraction
            · rcases List.mem_cons.mp fraction with rfl | digit
              · rfl
              · exact digits _ literal.fractionDigits char (behind ▸ digit)
            · exact List.cons_ne_nil _ _
      · exact power char tail

end NumberLiteral

theorem NumberLiteral.isMark_visible {char : Char} (mark : isMark char = true) :
    isSpace char = false ∧ isWhiteSpace char = false ∧ isNul char = false := by
  have number : (48 ≤ char.toNat ∧ char.toNat ≤ 57) ∨ char.toNat = 45 ∨ char.toNat = 43 ∨
      char.toNat = 46 ∨ char.toNat = 101 ∨ char.toNat = 69 := by
    simp only [isMark, Bool.or_eq_true, decide_eq_true_eq] at mark
    rcases mark with ((((digit | rfl) | rfl) | rfl) | rfl) | rfl
    · exact .inl (Char.isDigit_iff_toNat.mp digit)
    all_goals simp
  have space : char ≠ ' ' := by
    rintro rfl
    simp at number
  refine ⟨?_, ?_, ?_⟩
  · simp only [isSpace, space, decide_false, Bool.false_or, Bool.and_eq_false_iff,
      decide_eq_false_iff_not]
    omega
  · simp only [isWhiteSpace, Bool.or_eq_false_iff, Bool.and_eq_false_iff, decide_eq_false_iff_not]
    omega
  · simp only [isNul, decide_eq_false_iff_not]
    omega

namespace NumberLiteral

variable (literal : NumberLiteral)

theorem reads_power : ReadsPower literal.tail literal.power := by
  unfold tail power
  cases literal.exponent with
  | none => exact .none
  | some part =>
      refine .exponent part.marked ?_
      have value := digitsValue_digits part.filled part.isDigits
      show signedChars (part.sign ++ part.digits) = some part.value
      rw [ExponentPart.value, withSign]
      rcases part.signed with same | same | same
      · rw [same, List.nil_append]
        cases digits : part.digits with
        | nil => exact absurd digits part.filled
        | cons first rest =>
            rw [digits] at value
            rw [signedChars_plain (part.isDigits first (digits ▸ List.mem_cons_self)), value]
            rfl
      · rw [same, List.singleton_append, signedChars, value]
        rfl
      · rw [same, List.singleton_append, signedChars, value]
        rfl

theorem chars_filled : literal.chars ≠ [] := by
  obtain ⟨first, rest, opened, _⟩ := literal.opens
  rw [chars_eq, opened]
  simp

theorem strip_chars {blank : Char → Bool} (visible : ∀ char, isMark char = true → blank char = false) :
    ((literal.chars.dropWhile blank).reverse.dropWhile blank).reverse = literal.chars := by
  have stripped := @strip_solid blank literal.chars [] literal.chars_filled
    (fun char member => visible char (literal.chars_marks char member)) (by simp)
  rwa [List.append_nil] at stripped

theorem strip_nul : (literal.chars.reverse.dropWhile isNul).reverse = literal.chars := by
  rw [dropWhile_solid, List.reverse_reverse]
  intro char member
  exact (isMark_visible (literal.chars_marks char (List.mem_reverse.mp member))).2.2

theorem trimmed_chars : trimmed (literal.chars.reverse.dropWhile isNul).reverse = literal.chars := by
  rw [strip_nul]
  exact literal.strip_chars fun char mark => (isMark_visible mark).1

theorem boolTryParse_chars : boolTryParse literal.chars = none := by
  have opened : ∃ first rest, literal.chars = first :: rest ∧ first.toLower ≠ 't' ∧
      first.toLower ≠ 'f' := by
    obtain ⟨first, rest, opened, digit⟩ := literal.opens
    rw [chars_eq, opened]
    split
    · exact ⟨'-', first :: rest, rfl, by decide, by decide⟩
    · refine ⟨first, rest, rfl, ?_⟩
      rw [toLower_digit digit]
      constructor
      · rintro rfl
        cases digit
      · rintro rfl
        cases digit
  have stripped : stripped (fun char => isWhiteSpace char || isNul char) literal.chars =
      literal.chars := literal.strip_chars fun char mark => by
    rw [(isMark_visible mark).2.1, (isMark_visible mark).2.2, Bool.or_false]
  obtain ⟨first, rest, opened, noTrue, noFalse⟩ := opened
  rw [boolTryParse, stripped, opened]
  simp [noTrue, noFalse]

theorem body_digits {value : Nat} (read : digitsValue literal.body = some value) :
    literal.fraction = [] ∧ literal.exponent = none ∧
      value = Nat.ofDigitChars 10 literal.whole 0 := by
  have allDigits := (digitsValue_some read).2
  have fraction : literal.fraction = [] := by
    by_contra filled
    have point : '.' ∈ pointed literal.fraction := by
      cases behind : literal.fraction with
      | nil => exact absurd behind filled
      | cons first rest => exact List.mem_cons_self
    have digit := allDigits '.' (List.mem_append_right _ (List.mem_append_left _ point))
    cases digit
  have exponent : literal.exponent = none := by
    cases present : literal.exponent with
    | none => rfl
    | some part =>
        have letter : part.letter ∈ literal.tail := by
          simp [tail, present, ExponentPart.chars]
        have digit := allDigits _ (List.mem_append_right _ (List.mem_append_right _ letter))
        rcases part.marked with same | same <;> rw [same] at digit <;> cases digit
  refine ⟨fraction, exponent, ?_⟩
  have body : literal.body = literal.whole := by
    simp [NumberLiteral.body, fraction, tail, exponent, pointed]
  rw [body, digitsValue_digits literal.filled literal.wholeDigits] at read
  exact (Option.some.inj read).symm

/-- A literal that is a long has no point and no exponent. -/
theorem longTryParse_chars {value : Int} (read : longTryParse literal.chars = some value) :
    Decimal.ofInt value = literal.value := by
  have parsed : signedChars literal.chars = some value := by
    rw [← literal.trimmed_chars]
    exact (Option.filter_eq_some_iff.mp read).1
  obtain ⟨number, digits, same⟩ : ∃ number, digitsValue literal.body = some number ∧
      value = withSign literal.negative number := by
    obtain ⟨first, rest, opened, digit⟩ := literal.opens
    rw [chars_eq] at parsed
    cases sign : literal.negative with
    | true =>
        rw [sign, if_pos rfl, List.singleton_append, signedChars_minus] at parsed
        obtain ⟨number, digits, rfl⟩ := Option.map_eq_some_iff.mp parsed
        exact ⟨number, digits, rfl⟩
    | false =>
        rw [sign, if_neg Bool.false_ne_true, List.nil_append, opened, signedChars_plain digit] at parsed
        obtain ⟨number, digits, rfl⟩ := Option.map_eq_some_iff.mp parsed
        exact ⟨number, opened ▸ digits, rfl⟩
  obtain ⟨fraction, exponent, rfl⟩ := literal.body_digits digits
  rw [same, NumberLiteral.value, NumberLiteral.digits, power, exponent, fraction, List.append_nil]
  simp [Decimal.scaled]

theorem doubleParts_body : doubleParts literal.body =
    some (literal.whole, literal.fraction, literal.power) := by
  have grouped : ∀ char ∈ literal.whole, (char.isDigit || char = ',') = true := by
    intro char member
    rw [literal.wholeDigits char member, Bool.true_or]
  have ends : ((pointed literal.fraction ++ literal.tail).head?.all fun char =>
      !(char.isDigit || char = ',')) = true := by
    have reads := literal.reads_power
    generalize literal.power = exponent at reads
    generalize literal.tail = tail at reads ⊢
    cases literal.fraction with
    | nil =>
        rw [pointed, List.nil_append]
        cases reads with
        | none => rfl
        | exponent marked => rcases marked with rfl | rfl <;> rfl
    | cons => rfl
  obtain ⟨before, behind⟩ := takeWhile_ended grouped ends
  have comma : literal.whole.head? ≠ some ',' := by
    intro opens
    have digit := literal.wholeDigits ',' (List.mem_of_mem_head? opens)
    cases digit
  have kept : literal.whole.filter (fun char => char ≠ ',') = literal.whole := by
    rw [List.filter_eq_self]
    intro char member
    rw [decide_eq_true_eq]
    rintro rfl
    cases literal.wholeDigits _ member
  simp only [doubleParts, body, before, behind, comma, if_false, kept]
  exact decimalParts_pointed literal.filled literal.wholeDigits literal.fractionDigits
    literal.reads_power

theorem doubleTryParse_chars : doubleTryParse literal.chars = some literal.double := by
  obtain ⟨first, rest, opened, digit⟩ := literal.opens
  have unsigned : (if literal.chars.head? = some '-' ∨ literal.chars.head? = some '+' then
      literal.chars.drop 1 else literal.chars) = literal.body ∧
      decide (literal.chars.head? = some '-') = literal.negative := by
    have minus : first ≠ '-' := by
      rintro rfl
      cases digit
    have plus : first ≠ '+' := by
      rintro rfl
      cases digit
    rw [chars_eq]
    cases literal.negative with
    | true => simp
    | false => simp [opened, minus, plus]
  simp only [doubleTryParse, literal.trimmed_chars, unsigned.1, unsigned.2,
    literal.doubleParts_body]
  rfl

end NumberLiteral

/-! Scalars. -/

namespace FlowMapLoader

theorem scalarToJson_literal (literal : NumberLiteral) :
    serialized (scalarToJson (String.ofList literal.chars)) = some (.number literal.value) ↔
      literal.Survives := by
  rw [scalarToJson, String.toList_ofList, literal.boolTryParse_chars, NumberLiteral.Survives]
  cases read : longTryParse literal.chars with
  | some value =>
      rw [← literal.longTryParse_chars read]
      simp [serialized]
  | none =>
      rw [literal.doubleTryParse_chars]
      simp [serialized]

theorem scalarToJson_text (content : String) :
    serialized (scalarToJson content) = some (.text content) ↔ IsText content := by
  rw [scalarToJson, IsText]
  cases boolTryParse content.toList with
  | some boolean => simp [serialized]
  | none =>
      cases longTryParse content.toList with
      | some integer => simp [serialized]
      | none =>
          cases doubleTryParse content.toList with
          | some number => simp [serialized]
          | none => simp [serialized]

def carried (document : Document) : Option Json :=
  document.compose.bind fun root => serialized (toJson root)

def carriedItems (items : List Document) : Option (List Json) :=
  (Document.composeItems items).bind fun nodes => serializedItems (toJsonItems nodes)

theorem carried_array (items : List Document) :
    carried (.array items) = (carriedItems items).map .array := by
  unfold carried carriedItems
  rw [Document.compose]
  cases Document.composeItems items <;> rfl

theorem carriedItems_cons (item : Document) (rest : List Document) :
    carriedItems (item :: rest) =
      (carried item).bind fun value => (carriedItems rest).map (value :: ·) := by
  unfold carriedItems carried
  rw [Document.composeItems]
  cases item.compose with
  | none => rfl
  | some node =>
      cases Document.composeItems rest with
      | none =>
          show none = (serialized (toJson node)).bind fun _ => none
          cases serialized (toJson node) <;> rfl
      | some nodes => rfl

theorem carriedItems_length : ∀ {items : List Document} {values : List Json},
    carriedItems items = some values → values.length = items.length := by
  intro items
  induction items with
  | nil =>
      intro values carried
      cases carried
      rfl
  | cons item rest ih =>
      intro values carried
      rw [carriedItems_cons] at carried
      obtain ⟨value, _, later⟩ := Option.bind_eq_some_iff.mp carried
      obtain ⟨others, inside, rfl⟩ := Option.map_eq_some_iff.mp later
      rw [List.length_cons, List.length_cons, ih inside]

/-! An object is read member by member, and assigned in the same order. -/

def keyed (key : String) (node : YamlNode) : YamlNode × YamlNode := (.scalar (some key) true, node)

theorem composeMembers_eq (members : List (String × Document)) :
    Document.composeMembers members = (Document.composeItems (members.map Prod.snd)).map fun nodes =>
      List.zipWith keyed (members.map Prod.fst) nodes := by
  induction members with
  | nil => rfl
  | cons member rest ih =>
      obtain ⟨key, content⟩ := member
      rw [Document.composeMembers, ih, List.map_cons, List.map_cons, Document.composeItems]
      cases content.compose with
      | none => rfl
      | some node => cases Document.composeItems (rest.map Prod.snd) <;> rfl

theorem toJsonMembers_keyed : ∀ (keys : List String) (nodes : List YamlNode)
    (result : List (String × Boxed)), (result.map Prod.fst ++ keys).Nodup →
      toJsonMembers result (List.zipWith keyed keys nodes) =
        result ++ keys.zip (toJsonItems nodes) := by
  intro keys
  induction keys with
  | nil => intro nodes result _; simp [toJsonMembers]
  | cons key rest ih =>
      intro nodes result distinct
      cases nodes with
      | nil => simp [toJsonMembers, toJsonItems]
      | cons node others =>
          have fresh : (result.any fun member => member.1 = key) = false := by
            rw [List.any_eq_false]
            intro member inside same
            rw [List.nodup_append] at distinct
            exact distinct.2.2 member.1 (List.mem_map_of_mem inside) key List.mem_cons_self
              (of_decide_eq_true same)
          rw [List.zipWith_cons_cons, keyed, toJsonMembers, assign, fresh, if_neg Bool.false_ne_true,
            ih others _ (by simpa using distinct), toJsonItems, List.zip_cons_cons, List.append_assoc]
          rfl

theorem serializedMembers_zip : ∀ (keys : List String) (items : List Boxed),
    items.length = keys.length → serializedMembers (keys.zip items) =
      (serializedItems items).map fun values => keys.zip values := by
  intro keys
  induction keys with
  | nil => intro items same; rw [List.length_eq_zero_iff.mp same]; rfl
  | cons key rest ih =>
      intro items same
      cases items with
      | nil => cases same
      | cons item others =>
          rw [List.zip_cons_cons, serializedMembers, ih others (by simpa using same), serializedItems]
          cases serialized item with
          | none => rfl
          | some value => cases serializedItems others <;> rfl

theorem composeItems_length : ∀ {items : List Document} {nodes : List YamlNode},
    Document.composeItems items = some nodes → (toJsonItems nodes).length = items.length := by
  intro items
  induction items with
  | nil =>
      intro nodes composed
      cases composed
      rfl
  | cons item rest ih =>
      intro nodes composed
      rw [Document.composeItems] at composed
      obtain ⟨node, _, later⟩ := Option.bind_eq_some_iff.mp composed
      obtain ⟨others, inside, rfl⟩ := Option.map_eq_some_iff.mp later
      rw [toJsonItems, List.length_cons, List.length_cons, ih inside]

theorem carried_object (members : List (String × Document)) : carried (.object members) =
    if (members.map Prod.fst).Nodup then
      (carriedItems (members.map Prod.snd)).map fun values =>
        .object ((members.map Prod.fst).zip values)
    else none := by
  unfold carried carriedItems
  rw [Document.compose, composeMembers_eq]
  split
  · rename_i distinct
    cases composed : Document.composeItems (members.map Prod.snd) with
    | none => rfl
    | some nodes =>
        have length : (toJsonItems nodes).length = (members.map Prod.fst).length := by
          rw [composeItems_length composed, List.length_map, List.length_map]
        rw [Option.map_some, Option.map_some, Option.bind_some, Option.bind_some, toJson,
          toJsonMembers_keyed _ _ [] (by simpa using distinct), List.nil_append, serialized,
          serializedMembers_zip _ _ length, Option.map_map]
        rfl
  · rfl

theorem valueMembers_eq (members : List (String × Document)) : Document.valueMembers members =
    (members.map Prod.fst).zip (Document.valueItems (members.map Prod.snd)) := by
  induction members with
  | nil => rfl
  | cons member rest ih =>
      obtain ⟨key, content⟩ := member
      rw [Document.valueMembers, ih]
      rfl

theorem valueItems_length (items : List Document) :
    (Document.valueItems items).length = items.length := by
  induction items with
  | nil => rfl
  | cons item rest ih => rw [Document.valueItems, List.length_cons, List.length_cons, ih]

/-- The names are the same, so the objects are equal where their values are. -/
theorem carried_object_iff (members : List (String × Document)) :
    carried (.object members) = some (.object (Document.valueMembers members)) ↔
      (members.map Prod.fst).Nodup ∧ carriedItems (members.map Prod.snd) =
        some (Document.valueItems (members.map Prod.snd)) := by
  have lengths : ∀ values : List Json, values.length = (members.map Prod.snd).length →
      ((members.map Prod.fst).zip values).map Prod.snd = values := by
    intro values same
    exact List.map_snd_zip (by rw [same, List.length_map, List.length_map])
  rw [carried_object, valueMembers_eq]
  split
  · rename_i distinct
    constructor
    · intro same
      obtain ⟨values, inside, equal⟩ := Option.map_eq_some_iff.mp same
      have zipped := congrArg (List.map Prod.snd) (Json.object.inj equal)
      rw [lengths values (carriedItems_length inside),
        lengths _ (valueItems_length (members.map Prod.snd))] at zipped
      exact ⟨distinct, zipped ▸ inside⟩
    · rintro ⟨_, inside⟩
      rw [inside]
      rfl
  · rename_i repeated
    constructor
    · intro same
      cases same
    · rintro ⟨distinct, _⟩
      exact absurd distinct repeated

mutual
theorem carried_iff : ∀ document : Document,
    carried document = some document.value ↔ document.Survives
  | .null => by
      have text : carried .null = some (.text "null") := by decide
      rw [text, Document.Survives]
      simp [Document.value]
  | .bool content => by
      have kept : carried (.bool content) = some (.bool content) := by
        cases content <;> decide
      rw [kept, Document.Survives]
      simp [Document.value]
  | .number literal => scalarToJson_literal literal
  | .text content => scalarToJson_text content
  | .array items => by
      have inside := carriedItems_iff items
      rw [carried_array, Document.value, Document.Survives, ← inside]
      cases carriedItems items <;> simp
  | .object members => by
      have inside := carriedMembers_iff members
      rw [Document.value, Document.Survives, carried_object_iff, inside]
theorem carriedItems_iff : ∀ items : List Document,
    carriedItems items = some (Document.valueItems items) ↔ Document.SurviveItems items
  | [] => by simp [carriedItems, Document.composeItems, toJsonItems, serializedItems,
      Document.valueItems, Document.SurviveItems]
  | item :: rest => by
      have first := carried_iff item
      have later := carriedItems_iff rest
      rw [carriedItems_cons, Document.valueItems, Document.SurviveItems, ← first, ← later]
      cases carried item <;> cases carriedItems rest <;> simp
theorem carriedMembers_iff : ∀ members : List (String × Document),
    carriedItems (members.map Prod.snd) = some (Document.valueItems (members.map Prod.snd)) ↔
      Document.SurviveMembers members
  | [] => by simp [carriedItems, Document.composeItems, toJsonItems, serializedItems,
      Document.valueItems, Document.SurviveMembers]
  | (_, content) :: rest => by
      have first := carried_iff content
      have later := carriedMembers_iff rest
      rw [List.map_cons, carriedItems_cons, Document.valueItems, Document.SurviveMembers, ← first,
        ← later]
      cases carried content <;> cases carriedItems (rest.map Prod.snd) <;> simp
end

/-! Nesting. The YAML branch keeps it, and the serializer has less room than the parser. -/

theorem scalarToJson_depth (content : String) {written : Json}
    (scalar : serialized (scalarToJson content) = some written) : written.depth = 0 := by
  unfold scalarToJson at scalar
  split at scalar
  · cases scalar
    rfl
  · split at scalar
    · cases scalar
      rfl
    · split at scalar
      · obtain ⟨_, _, rfl⟩ := Option.map_eq_some_iff.mp scalar
        rfl
      · cases scalar
        rfl

mutual
theorem carried_depth : ∀ (document : Document) {written : Json},
    carried document = some written → written.depth = document.value.depth
  | .null, _, scalar => scalarToJson_depth "null" scalar
  | .bool content, _, scalar => scalarToJson_depth (if content then "true" else "false") scalar
  | .number literal, _, scalar => scalarToJson_depth (String.ofList literal.chars) scalar
  | .text content, _, scalar => scalarToJson_depth content scalar
  | .array items, written, carried => by
      rw [carried_array] at carried
      obtain ⟨values, inside, rfl⟩ := Option.map_eq_some_iff.mp carried
      rw [Document.value, Json.depth, Json.depth, carriedItems_depth items inside]
  | .object members, written, carried => by
      rw [carried_object] at carried
      split at carried
      · obtain ⟨values, inside, rfl⟩ := Option.map_eq_some_iff.mp carried
        rw [Document.value, Json.depth, Json.depth, carriedMembers_depth members inside]
      · cases carried
theorem carriedItems_depth : ∀ (items : List Document) {values : List Json},
    carriedItems items = some values →
      Json.itemsDepth values = Json.itemsDepth (Document.valueItems items)
  | [], values, carried => by
      cases carried
      rfl
  | item :: rest, values, carried => by
      rw [carriedItems_cons] at carried
      obtain ⟨value, first, later⟩ := Option.bind_eq_some_iff.mp carried
      obtain ⟨others, inside, rfl⟩ := Option.map_eq_some_iff.mp later
      rw [Document.valueItems, Json.itemsDepth, Json.itemsDepth, carried_depth item first,
        carriedItems_depth rest inside]
theorem carriedMembers_depth : ∀ (members : List (String × Document)) {values : List Json},
    carriedItems (members.map Prod.snd) = some values →
      Json.membersDepth ((members.map Prod.fst).zip values) =
        Json.membersDepth (Document.valueMembers members)
  | [], values, _ => by simp [Json.membersDepth, Document.valueMembers]
  | (key, content) :: rest, values, carried => by
      rw [List.map_cons, carriedItems_cons] at carried
      obtain ⟨value, first, later⟩ := Option.bind_eq_some_iff.mp carried
      obtain ⟨others, inside, rfl⟩ := Option.map_eq_some_iff.mp later
      rw [List.map_cons, List.zip_cons_cons, Document.valueMembers, Json.membersDepth,
        Json.membersDepth, carried_depth content first, carriedMembers_depth rest inside]
end

end FlowMapLoader

end PaymentWorkflow
