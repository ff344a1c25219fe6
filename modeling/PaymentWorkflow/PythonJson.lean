import Mathlib.Data.List.Lex
import Mathlib.Data.List.Sort
import PaymentWorkflow.PythonText

/-! Python's json: `dumps` with compact separators and `ensure_ascii=False`, and `loads`. -/

namespace Python

/-- What `json.loads` returns. A float keeps its literal. -/
inductive Value
  | null
  | bool (value : Bool)
  | int (value : Int)
  | real (shown : Text)
  | text (content : Text)
  | list (items : List Value)
  | dict (members : List (Text × Value))

def quoteMark : CodePoint := .ofChar '"'
def backslash : CodePoint := .ofChar '\\'
def comma : CodePoint := .ofChar ','
def colon : CodePoint := .ofChar ':'
def openBrace : CodePoint := .ofChar '\x7b'
def closeBrace : CodePoint := .ofChar '\x7d'
def openBracket : CodePoint := .ofChar '['
def closeBracket : CodePoint := .ofChar ']'

def hexDigit (digit : Nat) : CodePoint :=
  CodePoint.ofChar (Char.ofNat (if digit < 10 then 48 + digit else 87 + digit))

def escapePoint (point : CodePoint) : Text :=
  if point = quoteMark then literal "\\\""
  else if point = backslash then literal "\\\\"
  else if point.number = 8 then literal "\\b"
  else if point.number = 9 then literal "\\t"
  else if point.number = 10 then literal "\\n"
  else if point.number = 12 then literal "\\f"
  else if point.number = 13 then literal "\\r"
  else if point.number < 32 then
    literal "\\u00" ++ [hexDigit (point.number / 16), hexDigit (point.number % 16)]
  else [point]

def quoted (content : Text) : Text := quoteMark :: content.flatMap escapePoint ++ [quoteMark]

def join (parts : List Text) : Text := List.intercalate [comma] parts

def shownMember (member : Text × Text) : Text := quoted member.1 ++ colon :: member.2

def inOrder (left right : Text) : Bool := left.map CodePoint.number ≤ right.map CodePoint.number

mutual
def dumps (sortKeys : Bool) : Value → Text
  | .null => literal "null"
  | .bool true => literal "true"
  | .bool false => literal "false"
  | .int value => literal (toString value)
  | .real shown => shown
  | .text content => quoted content
  | .list items => openBracket :: join (dumpsItems sortKeys items) ++ [closeBracket]
  | .dict members =>
      let shown := dumpsMembers sortKeys members
      let arranged := if sortKeys then shown.insertionSort (fun left right =>
        inOrder left.1 right.1) else shown
      openBrace :: join (arranged.map shownMember) ++ [closeBrace]
def dumpsItems (sortKeys : Bool) : List Value → List Text
  | [] => []
  | item :: rest => dumps sortKeys item :: dumpsItems sortKeys rest
def dumpsMembers (sortKeys : Bool) : List (Text × Value) → List (Text × Text)
  | [] => []
  | (key, value) :: rest => (key, dumps sortKeys value) :: dumpsMembers sortKeys rest
end

/-! `loads` -/

def isSpace (point : CodePoint) : Bool :=
  point = ' ' || point = '\t' || point = '\n' || point = '\r'

def skipSpace (text : Text) : Text := text.dropWhile isSpace

def hexValue? (point : CodePoint) : Option Nat :=
  if 48 ≤ point.number ∧ point.number ≤ 57 then some (point.number - 48)
  else if 97 ≤ point.number ∧ point.number ≤ 102 then some (point.number - 87)
  else if 65 ≤ point.number ∧ point.number ≤ 70 then some (point.number - 55)
  else none

def hexUnit? (first second third fourth : CodePoint) : Option Nat := do
  let high ← hexValue? first
  let upper ← hexValue? second
  let lower ← hexValue? third
  let low ← hexValue? fourth
  return ((high * 16 + upper) * 16 + lower) * 16 + low

def shortEscape? (point : CodePoint) : Option CodePoint :=
  if point = quoteMark ∨ point = backslash ∨ point = '/' then some point
  else if point = 'b' then some ⟨8, by decide⟩
  else if point = 'f' then some ⟨12, by decide⟩
  else if point = 'n' then some ⟨10, by decide⟩
  else if point = 'r' then some ⟨13, by decide⟩
  else if point = 't' then some ⟨9, by decide⟩
  else none

def toPoint (number : Nat) : CodePoint :=
  if below : number < 0x110000 then ⟨number, below⟩ else ⟨0, by decide⟩

def putFront (point : CodePoint) : Option (Text × Text) → Option (Text × Text) :=
  Option.map fun read => (point :: read.1, read.2)

/-- The contents of a string up to its closing quote, a unit for each `\u`, and what follows. -/
def scanString : Text → Option (Text × Text)
  | [] => none
  | point :: rest =>
      if point = quoteMark then some ([], rest)
      else if point = backslash then
        match rest with
        | [] => none
        | escape :: rest =>
            if escape = 'u' then
              match rest with
              | first :: second :: third :: fourth :: rest =>
                  match hexUnit? first second third fourth with
                  | none => none
                  | some unit => putFront (toPoint unit) (scanString rest)
              | _ => none
            else
              match shortEscape? escape with
              | none => none
              | some meant => putFront meant (scanString rest)
      else if point.number < 32 then none
      else putFront point (scanString rest)

def isHigh (point : CodePoint) : Bool := 0xD800 ≤ point.number && point.number ≤ 0xDBFF

def isLow (point : CodePoint) : Bool := 0xDC00 ≤ point.number && point.number ≤ 0xDFFF

/-- Two escapes in a row may be a surrogate pair; decoded bytes hold no other surrogates. -/
def joinPairs : Text → Text
  | first :: second :: rest =>
      if isHigh first && isLow second then
        toPoint (0x10000 + (first.number - 0xD800) * 0x400 + (second.number - 0xDC00)) ::
          joinPairs rest
      else first :: joinPairs (second :: rest)
  | short => short

def parseString (text : Text) : Option (Text × Text) :=
  (scanString text).map fun read => (joinPairs read.1, read.2)

def isDigit (point : CodePoint) : Bool := 48 ≤ point.number && point.number ≤ 57

def digitsValue (digits : Text) : Nat :=
  digits.foldl (fun value digit => value * 10 + (digit.number - 48)) 0

def takeFraction : Text → Text × Text
  | point :: rest =>
      if point = '.' ∧ rest.takeWhile isDigit ≠ [] then
        (point :: rest.takeWhile isDigit, rest.dropWhile isDigit)
      else ([], point :: rest)
  | [] => ([], [])

def takeExponent : Text → Text × Text
  | point :: rest =>
      let sign := rest.take (if rest.head? = some '+' ∨ rest.head? = some '-' then 1 else 0)
      let digits := (rest.drop sign.length).takeWhile isDigit
      if (point = 'e' ∨ point = 'E') ∧ digits ≠ [] then
        (point :: sign ++ digits, (rest.drop sign.length).dropWhile isDigit)
      else ([], point :: rest)
  | [] => ([], [])

/-- `(-?(?:0|[1-9]\d*))(\.\d+)?([eE][-+]?\d+)?` -/
def parseNumber (text : Text) : Option (Value × Text) :=
  let sign := text.take (if text.head? = some '-' then 1 else 0)
  let unsigned := text.drop sign.length
  let whole := if unsigned.head? = some '0' then unsigned.take 1 else unsigned.takeWhile isDigit
  if whole = [] then none
  else
    let (fraction, afterFraction) := takeFraction (unsigned.drop whole.length)
    let (exponent, rest) := takeExponent afterFraction
    if fraction = [] ∧ exponent = [] then
      some (.int (if sign = [] then digitsValue whole else -(digitsValue whole : Int)), rest)
    else some (.real (sign ++ whole ++ fraction ++ exponent), rest)

def insertMember (members : List (Text × Value)) (key : Text) (value : Value) :
    List (Text × Value) :=
  if members.any fun member => member.1 = key then
    members.map fun member => if member.1 = key then (key, value) else member
  else members ++ [(key, value)]

def toDict (pairs : List (Text × Value)) : List (Text × Value) :=
  pairs.foldl (fun members pair => insertMember members pair.1 pair.2) []

def parseName (text : Text) : Option (Value × Text) :=
  if literal "null" <+: text then some (.null, text.drop 4)
  else if literal "true" <+: text then some (.bool true, text.drop 4)
  else if literal "false" <+: text then some (.bool false, text.drop 5)
  else if literal "NaN" <+: text then some (.real (literal "NaN"), text.drop 3)
  else if literal "Infinity" <+: text then some (.real (literal "Infinity"), text.drop 8)
  else if literal "-Infinity" <+: text then some (.real (literal "-Infinity"), text.drop 9)
  else none

mutual
def parseValue : Nat → Text → Option (Value × Text)
  | 0, _ => none
  | _ + 1, [] => none
  | fuel + 1, point :: rest =>
      if point = quoteMark then (parseString rest).map fun read => (.text read.1, read.2)
      else if point = openBrace then
        if (skipSpace rest).head? = some closeBrace then some (.dict [], (skipSpace rest).drop 1)
        else (parseMembers fuel (skipSpace rest)).map fun read => (.dict (toDict read.1), read.2)
      else if point = openBracket then
        if (skipSpace rest).head? = some closeBracket then some (.list [], (skipSpace rest).drop 1)
        else (parseItems fuel (skipSpace rest)).map fun read => (.list read.1, read.2)
      else (parseName (point :: rest)).orElse fun _ => parseNumber (point :: rest)
def parseItems : Nat → Text → Option (List Value × Text)
  | 0, _ => none
  | fuel + 1, text => do
      let (item, rest) ← parseValue fuel text
      match skipSpace rest with
      | [] => none
      | point :: after =>
          if point = closeBracket then some ([item], after)
          else if point = comma then
            (parseItems fuel (skipSpace after)).map fun read => (item :: read.1, read.2)
          else none
def parseMembers : Nat → Text → Option (List (Text × Value) × Text)
  | 0, _ => none
  | _ + 1, [] => none
  | fuel + 1, point :: text =>
      if point ≠ quoteMark then none
      else do
        let (key, afterKey) ← parseString text
        if (skipSpace afterKey).head? ≠ some colon then none
        else do
          let (value, rest) ← parseValue fuel (skipSpace ((skipSpace afterKey).drop 1))
          match skipSpace rest with
          | [] => none
          | point :: after =>
              if point = closeBrace then some ([(key, value)], after)
              else if point = comma then
                (parseMembers fuel (skipSpace after)).map fun read =>
                  ((key, value) :: read.1, read.2)
              else none
end

/-- `none` for a JSONDecodeError. -/
def loads (text : Text) : Option Value := do
  let (value, rest) ← parseValue (text.length + 1) (skipSpace text)
  if skipSpace rest = [] then some value else none

/-! Reading back what was written. -/

theorem hexValue?_hexDigit : ∀ digit < 16, hexValue? (hexDigit digit) = some digit := by decide

theorem literal_unicode (tail : Text) : literal "\\u00" ++ tail =
    backslash :: CodePoint.ofChar 'u' :: CodePoint.ofChar '0' :: CodePoint.ofChar '0' :: tail := rfl

theorem scanString_unicode (first second third fourth : CodePoint) (tail : Text) {unit : Nat}
    (read : hexUnit? first second third fourth = some unit) :
    scanString (backslash :: CodePoint.ofChar 'u' :: first :: second :: third :: fourth :: tail) =
      putFront (toPoint unit) (scanString tail) := by
  have noQuote : backslash ≠ quoteMark := by decide
  rw [scanString.eq_def]
  simp [noQuote, read]

theorem scanString_short {escape meant : CodePoint} (tail : Text)
    (short : shortEscape? escape = some meant) (other : escape ≠ CodePoint.ofChar 'u') :
    scanString (backslash :: escape :: tail) = putFront meant (scanString tail) := by
  have noQuote : backslash ≠ quoteMark := by decide
  rw [scanString.eq_def]
  simp [noQuote, other, short]

theorem scanString_plain {point : CodePoint} (tail : Text) (noQuote : point ≠ quoteMark)
    (noEscape : point ≠ backslash) (printed : ¬ point.number < 32) :
    scanString (point :: tail) = putFront point (scanString tail) := by
  rw [scanString.eq_def]
  simp [noQuote, noEscape, printed]

theorem toPoint_number (point : CodePoint) : toPoint point.number = point := by
  simp [toPoint, point.below]

theorem eq_of_number {point : CodePoint} {number : Nat} (below : number < 0x110000)
    (same : point.number = number) : point = ⟨number, below⟩ := by
  cases point
  cases same
  rfl

theorem scanString_control {point : CodePoint} (tail : Text) (control : point.number < 32) :
    scanString (literal "\\u00" ++ [hexDigit (point.number / 16), hexDigit (point.number % 16)] ++
      tail) = putFront point (scanString tail) := by
  have read : hexUnit? (CodePoint.ofChar '0') (CodePoint.ofChar '0')
      (hexDigit (point.number / 16)) (hexDigit (point.number % 16)) = some point.number := by
    have zero : hexValue? (CodePoint.ofChar '0') = some 0 := by decide
    have sum : point.number / 16 * 16 + point.number % 16 = point.number :=
      Nat.div_add_mod' point.number 16
    simp [hexUnit?, zero, hexValue?_hexDigit _ (show point.number / 16 < 16 by omega),
      hexValue?_hexDigit _ (Nat.mod_lt point.number (by decide : 0 < 16)), sum]
  rw [List.append_assoc, literal_unicode, List.cons_append, List.cons_append, List.nil_append,
    scanString_unicode _ _ _ _ _ read, toPoint_number]

theorem scanString_escapePoint (point : CodePoint) (tail : Text) :
    scanString (escapePoint point ++ tail) = putFront point (scanString tail) := by
  unfold escapePoint
  by_cases isQuote : point = quoteMark
  · rw [if_pos isQuote, isQuote]
    exact scanString_short tail rfl (by decide)
  rw [if_neg isQuote]
  by_cases isBackslash : point = backslash
  · rw [if_pos isBackslash, isBackslash]
    exact scanString_short tail rfl (by decide)
  rw [if_neg isBackslash]
  by_cases backspace : point.number = 8
  · rw [if_pos backspace, eq_of_number (by decide) backspace]
    exact scanString_short tail rfl (by decide)
  rw [if_neg backspace]
  by_cases tab : point.number = 9
  · rw [if_pos tab, eq_of_number (by decide) tab]
    exact scanString_short tail rfl (by decide)
  rw [if_neg tab]
  by_cases newline : point.number = 10
  · rw [if_pos newline, eq_of_number (by decide) newline]
    exact scanString_short tail rfl (by decide)
  rw [if_neg newline]
  by_cases formFeed : point.number = 12
  · rw [if_pos formFeed, eq_of_number (by decide) formFeed]
    exact scanString_short tail rfl (by decide)
  rw [if_neg formFeed]
  by_cases carriage : point.number = 13
  · rw [if_pos carriage, eq_of_number (by decide) carriage]
    exact scanString_short tail rfl (by decide)
  rw [if_neg carriage]
  by_cases control : point.number < 32
  · rw [if_pos control]
    exact scanString_control tail control
  · rw [if_neg control]
    exact scanString_plain tail isQuote isBackslash control

theorem scanString_flatMap (content rest : Text) :
    scanString (content.flatMap escapePoint ++ quoteMark :: rest) = some (content, rest) := by
  induction content with
  | nil =>
      rw [List.flatMap_nil, List.nil_append, scanString.eq_def]
      simp
  | cons point content ih =>
      rw [List.flatMap_cons, List.append_assoc, scanString_escapePoint, ih]
      rfl

theorem joinPairs_scalar {content : Text} (scalar : content.any CodePoint.isSurrogate = false) :
    joinPairs content = content := by
  induction content with
  | nil => rfl
  | cons first rest ih =>
      rw [List.any_cons, Bool.or_eq_false_iff] at scalar
      cases rest with
      | nil => rfl
      | cons second rest =>
          have notHigh : isHigh first = false := by
            rw [Bool.eq_false_iff]
            intro high
            rw [isHigh, Bool.and_eq_true] at high
            have low := of_decide_eq_true high.1
            have top := of_decide_eq_true high.2
            have surrogate : first.isSurrogate = true := by
              rw [CodePoint.isSurrogate, Bool.and_eq_true]
              exact ⟨decide_eq_true low, decide_eq_true (by omega)⟩
            rw [surrogate] at scalar
            cases scalar.1
          rw [joinPairs, notHigh, Bool.false_and, if_neg Bool.false_ne_true, ih scalar.2]

theorem parseString_quoted {content : Text} (scalar : content.any CodePoint.isSurrogate = false)
    (rest : Text) :
    parseString (content.flatMap escapePoint ++ quoteMark :: rest) = some (content, rest) := by
  rw [parseString, scanString_flatMap, Option.map_some, joinPairs_scalar scalar]

def Ends (text : Text) : Prop := text.head? = some comma ∨ text.head? = some closeBrace

structure Member.Flat (member : Text × Value) : Prop where
  scalar : member.1.any CodePoint.isSurrogate = false
  starts : ∀ sortKeys rest, skipSpace (dumps sortKeys member.2 ++ rest) =
    dumps sortKeys member.2 ++ rest
  reads : ∀ sortKeys fuel rest, Ends rest →
    parseValue (fuel + 1) (dumps sortKeys member.2 ++ rest) = some (member.2, rest)

theorem skipSpace_cons {point : CodePoint} (rest : Text) (visible : isSpace point = false) :
    skipSpace (point :: rest) = point :: rest := by
  rw [skipSpace, List.dropWhile_cons_of_neg (by simp [visible])]

theorem Member.flat_text {key content : Text} (scalarKey : key.any CodePoint.isSurrogate = false)
    (scalar : content.any CodePoint.isSurrogate = false) :
    Member.Flat (key, .text content) where
  scalar := scalarKey
  starts _ rest := by
    simp only [dumps, quoted, List.cons_append]
    exact skipSpace_cons _ (by decide)
  reads _ fuel rest _ := by
    simp only [dumps, quoted, List.cons_append, List.append_assoc, List.nil_append]
    rw [parseValue, if_pos rfl, parseString_quoted scalar]
    rfl

theorem Member.flat_one {key : Text} (scalarKey : key.any CodePoint.isSurrogate = false) :
    Member.Flat (key, .int 1) where
  scalar := scalarKey
  starts _ rest := skipSpace_cons rest (by decide)
  reads _ fuel rest ends := by
    cases rest with
    | nil => rcases ends with ends | ends <;> cases ends
    | cons point tail =>
        rcases ends with ends | ends
        · cases ends
          rfl
        · cases ends
          rfl

theorem parseMembers_step (sortKeys : Bool) {member : Text × Value} (flat : Member.Flat member)
    (fuel : Nat) {point : CodePoint} (after : Text) (ends : point = comma ∨ point = closeBrace) :
    parseMembers (fuel + 2) (shownMember (member.1, dumps sortKeys member.2) ++ point :: after) =
      if point = closeBrace then some ([member], after)
      else (parseMembers (fuel + 1) (skipSpace after)).map fun read =>
        (member :: read.1, read.2) := by
  have visible : skipSpace (point :: after) = point :: after := by
    refine skipSpace_cons after ?_
    rcases ends with rfl | rfl <;> decide
  have stops : Ends (point :: after) := ends.imp (congrArg some) (congrArg some)
  have afterKey : skipSpace (colon :: (dumps sortKeys member.2 ++ point :: after)) =
      colon :: (dumps sortKeys member.2 ++ point :: after) := skipSpace_cons _ (by decide)
  simp only [shownMember, quoted, List.cons_append, List.append_assoc, List.nil_append]
  rw [parseMembers, if_neg (by simp), parseString_quoted flat.scalar]
  simp only [Option.bind_eq_bind, Option.bind_some, afterKey, List.head?_cons, ne_eq,
    not_true, if_false, List.drop_succ_cons, List.drop_zero, flat.starts,
    flat.reads _ _ _ stops, visible]
  rcases ends with rfl | rfl
  · rfl
  · rfl

theorem join_opens (sortKeys : Bool) {members : List (Text × Value)} (filled : members ≠ [])
    (rest : Text) : ∃ tail, join ((dumpsMembers sortKeys members).map shownMember) ++ rest =
      quoteMark :: tail := by
  cases members with
  | nil => exact absurd rfl filled
  | cons member others =>
      rw [dumpsMembers, List.map_cons, join]
      cases dumpsMembers sortKeys others with
      | nil => exact ⟨_, rfl⟩
      | cons second rest =>
          rw [List.map_cons, List.intercalate_cons_cons]
          exact ⟨_, rfl⟩

theorem skipSpace_join (sortKeys : Bool) {members : List (Text × Value)} (filled : members ≠ [])
    (rest : Text) : skipSpace (join ((dumpsMembers sortKeys members).map shownMember) ++ rest) =
      join ((dumpsMembers sortKeys members).map shownMember) ++ rest := by
  obtain ⟨tail, opens⟩ := join_opens sortKeys filled rest
  rw [opens]
  exact skipSpace_cons tail (by decide)

theorem length_le_join (sortKeys : Bool) (members : List (Text × Value)) :
    members.length ≤ (join ((dumpsMembers sortKeys members).map shownMember)).length := by
  induction members with
  | nil => exact Nat.zero_le _
  | cons member others ih =>
      cases others with
      | nil =>
          simp only [dumpsMembers, join, shownMember, List.map_cons, List.map_nil,
            List.intercalate_singleton, List.length_append, List.length_cons, List.length_nil]
          omega
      | cons second others =>
          simp only [dumpsMembers, join, List.map_cons, List.intercalate_cons_cons,
            List.length_append, List.length_cons] at ih ⊢
          omega

theorem parseMembers_dumps (sortKeys : Bool) (rest : Text) :
    ∀ (members : List (Text × Value)) (fuel : Nat), members ≠ [] →
      (∀ member ∈ members, Member.Flat member) →
      parseMembers (fuel + members.length + 1)
        (join ((dumpsMembers sortKeys members).map shownMember) ++ closeBrace :: rest) =
          some (members, rest) := by
  intro members
  induction members with
  | nil => intro fuel filled _; exact absurd rfl filled
  | cons member others ih =>
      intro fuel _ flat
      have first := flat member List.mem_cons_self
      cases others with
      | nil =>
          rw [List.length_singleton, dumpsMembers, dumpsMembers, List.map_singleton, join,
            List.intercalate_singleton, parseMembers_step sortKeys first _ _ (.inr rfl), if_pos rfl]
      | cons second others =>
          have later := ih fuel (List.cons_ne_nil _ _)
            fun other inside => flat other (List.mem_cons_of_mem _ inside)
          have opens := skipSpace_join sortKeys (List.cons_ne_nil second others)
            (closeBrace :: rest)
          have split : join ((dumpsMembers sortKeys (member :: second :: others)).map shownMember) ++
              closeBrace :: rest = shownMember (member.1, dumps sortKeys member.2) ++ comma ::
                (join ((dumpsMembers sortKeys (second :: others)).map shownMember) ++
                  closeBrace :: rest) := by
            simp [dumpsMembers, join]
          rw [split, List.length_cons, ← Nat.add_assoc,
            parseMembers_step sortKeys first _ _ (.inl rfl), if_neg (by decide), opens, later]
          rfl

theorem toDict_of_nodup {members : List (Text × Value)} (distinct : (members.map Prod.fst).Nodup) :
    toDict members = members := by
  have grows : ∀ (rest before : List (Text × Value)), ((before ++ rest).map Prod.fst).Nodup →
      rest.foldl (fun kept pair => insertMember kept pair.1 pair.2) before = before ++ rest := by
    intro rest
    induction rest with
    | nil => intro before _; exact (List.append_nil before).symm
    | cons pair rest ih =>
        intro before apart
        have fresh : (before.any fun member => member.1 = pair.1) = false := by
          rw [List.any_eq_false]
          intro member inside same
          rw [List.map_append, List.nodup_append] at apart
          refine apart.2.2 member.1 (List.mem_map_of_mem inside) pair.1 ?_ (of_decide_eq_true same)
          exact List.mem_map_of_mem List.mem_cons_self
        rw [List.foldl_cons, insertMember, fresh, if_neg Bool.false_ne_true, ih, List.append_assoc]
        · rfl
        · rwa [List.append_assoc]
  exact grows members [] distinct

/-! What the encoder cannot write. -/

theorem escapePoint_scalar {point : CodePoint} (scalar : point.isSurrogate = false) :
    (escapePoint point).any CodePoint.isSurrogate = false := by
  unfold escapePoint
  split_ifs
  any_goals exact literal_scalar _
  · rw [List.any_append, literal_scalar]
    simp [hexDigit, CodePoint.isSurrogate_ofChar]
  · simp [scalar]

theorem escapePoint_surrogate {point : CodePoint} (surrogate : point.isSurrogate = true) :
    escapePoint point = [point] := by
  have high : 0xD800 ≤ point.number := by
    rw [CodePoint.isSurrogate, Bool.and_eq_true] at surrogate
    exact of_decide_eq_true surrogate.1
  have noQuote : point ≠ quoteMark := by
    rintro rfl
    exact absurd high (by decide)
  have noEscape : point ≠ backslash := by
    rintro rfl
    exact absurd high (by decide)
  unfold escapePoint
  rw [if_neg noQuote, if_neg noEscape, if_neg (by omega), if_neg (by omega), if_neg (by omega),
    if_neg (by omega), if_neg (by omega), if_neg (by omega)]

theorem quoted_surrogate (content : Text) :
    (quoted content).any CodePoint.isSurrogate = content.any CodePoint.isSurrogate := by
  have marks : quoteMark.isSurrogate = false := by decide
  simp only [quoted, List.cons_append, List.any_cons, List.any_append, List.any_nil, marks,
    Bool.false_or, Bool.or_false, List.any_flatMap]
  congr 1
  funext point
  cases surrogate : point.isSurrogate with
  | true => rw [escapePoint_surrogate surrogate, List.any_cons, surrogate, Bool.true_or]
  | false => exact escapePoint_scalar surrogate

theorem join_surrogate (parts : List Text) :
    (join parts).any CodePoint.isSurrogate = parts.any (·.any CodePoint.isSurrogate) := by
  have comma : comma.isSurrogate = false := by decide
  induction parts with
  | nil => rfl
  | cons part rest ih =>
      cases rest with
      | nil => simp [join]
      | cons second rest =>
          rw [join, List.intercalate_cons_cons, List.any_append, List.any_append, List.any_cons,
            List.any_nil, comma, Bool.false_or, Bool.or_false, List.any_cons, ← ih]
          rfl

theorem dumpsMembers_eq (sortKeys : Bool) (members : List (Text × Value)) :
    dumpsMembers sortKeys members =
      members.map fun member => (member.1, dumps sortKeys member.2) := by
  induction members with
  | nil => rfl
  | cons member rest ih => rw [dumpsMembers, ih, List.map_cons]

theorem shown_surrogate (sortKeys : Bool) (members : List (Text × Value)) :
    (openBrace :: (join ((dumpsMembers sortKeys members).map shownMember) ++
      [closeBrace])).any CodePoint.isSurrogate =
      members.any fun member => member.1.any CodePoint.isSurrogate ||
        (dumps sortKeys member.2).any CodePoint.isSurrogate := by
  have marks : openBrace.isSurrogate = false ∧ closeBrace.isSurrogate = false ∧
      colon.isSurrogate = false := by decide
  rw [List.any_cons, List.any_append, join_surrogate, dumpsMembers_eq,
    List.any_cons, List.any_nil, marks.1, marks.2.1, Bool.false_or, Bool.or_false,
    Bool.or_false, List.map_map, List.any_map]
  congr 1
  funext member
  simp only [Function.comp, shownMember, List.any_append, List.any_cons, quoted_surrogate,
    marks.2.2, Bool.false_or]

theorem dumps_surrogate_unsorted (members : List (Text × Value)) :
    (dumps false (.dict members)).any CodePoint.isSurrogate =
      members.any fun member => member.1.any CodePoint.isSurrogate ||
        (dumps false member.2).any CodePoint.isSurrogate := by
  rw [← shown_surrogate false members]
  simp only [dumps, Bool.false_eq_true, if_false, List.cons_append]

section Read

variable {members : List (Text × Value)} (filled : members ≠ [])
  (flat : ∀ member ∈ members, Member.Flat member) (distinct : (members.map Prod.fst).Nodup)

include filled flat distinct

/-- A dict of such members, its keys distinct, is read back in the order it was written in. -/
theorem loads_shown (sortKeys : Bool) : loads (openBrace ::
    (join ((dumpsMembers sortKeys members).map shownMember) ++ [closeBrace])) =
      some (.dict members) := by
  have opens := skipSpace_join sortKeys filled [closeBrace]
  have first : (join ((dumpsMembers sortKeys members).map shownMember) ++ [closeBrace]).head? ≠
      some closeBrace := by
    obtain ⟨tail, opens⟩ := join_opens sortKeys filled [closeBrace]
    rw [opens, List.head?_cons]
    decide
  have long := length_le_join sortKeys members
  obtain ⟨fuel, enough⟩ := Nat.exists_eq_add_of_le long
  have read := parseMembers_dumps sortKeys [] members (fuel + 1) filled flat
  rw [Nat.add_right_comm fuel 1] at read
  rw [loads, skipSpace_cons _ (by decide), List.length_cons, List.length_append,
    List.length_singleton, enough, Nat.add_comm members.length fuel, parseValue,
    if_neg (by decide), if_pos rfl, opens, if_neg first, read]
  simp only [Option.map_some, toDict_of_nodup distinct, Option.bind_eq_bind, Option.bind_some]
  rfl

theorem loads_dumps_unsorted : loads (dumps false (.dict members)) = some (.dict members) := by
  rw [← loads_shown filled flat distinct false]
  simp only [dumps, Bool.false_eq_true, if_false, List.cons_append]

end Read

section Sorted

variable {members : List (Text × Value)}
  (sorted : (members.map Prod.fst).Pairwise fun left right => inOrder left right = true)

include sorted

theorem dumps_sorted : dumps true (.dict members) = openBrace ::
    (join ((dumpsMembers true members).map shownMember) ++ [closeBrace]) := by
  have arranged : (dumpsMembers true members).insertionSort
      (fun left right => inOrder left.1 right.1 = true) = dumpsMembers true members := by
    refine List.Pairwise.insertionSort_eq ?_
    rw [dumpsMembers_eq, List.pairwise_map]
    exact List.pairwise_map.mp sorted
  simp only [dumps, if_true, arranged, List.cons_append]

theorem dumps_surrogate : (dumps true (.dict members)).any CodePoint.isSurrogate =
    members.any fun member => member.1.any CodePoint.isSurrogate ||
      (dumps true member.2).any CodePoint.isSurrogate := by
  rw [dumps_sorted sorted, shown_surrogate]

/-- A dict of such members, its keys distinct and in order, is what `loads` gives back. -/
theorem loads_dumps (filled : members ≠ [])
    (flat : ∀ member ∈ members, Member.Flat member) (distinct : (members.map Prod.fst).Nodup) :
    loads (dumps true (.dict members)) = some (.dict members) := by
  rw [dumps_sorted sorted]
  exact loads_shown filled flat distinct true

end Sorted

end Python
