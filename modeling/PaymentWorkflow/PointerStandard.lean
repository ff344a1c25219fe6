import PaymentWorkflow.DecimalText
import PaymentWorkflow.MappingProofs

/-!
JSON Pointer as RFC 6901 defines it, and how far `Resolve` and `Set` of `JsonPointer.cs` keep
to it.
-/

namespace PaymentWorkflow

namespace JsonPointer

def isToken : List Char → Bool
  | [] => true
  | '~' :: '0' :: rest => isToken rest
  | '~' :: '1' :: rest => isToken rest
  | char :: rest => char ≠ '~' && char ≠ '/' && isToken rest

def decode : List Char → List Char
  | [] => []
  | '~' :: '0' :: rest => '~' :: decode rest
  | '~' :: '1' :: rest => '/' :: decode rest
  | char :: rest => char :: decode rest

structure Pointer where
  tokens : List (List Char)
  wellFormed : ∀ token ∈ tokens, isToken token = true

namespace Pointer

def text (pointer : Pointer) : String := String.ofList (pointer.tokens.flatMap ('/' :: ·))

def path (pointer : Pointer) : List (List Char) := pointer.tokens.map decode

end Pointer

/-- `array-index`: digits without a leading zero. -/
def arrayIndex? (token : List Char) : Option Nat :=
  if token = ['0'] then some 0
  else if token.head? ≠ some '0' then digitsValue token
  else none

/-- The evaluation of section 4. -/
def evaluate : Json → List (List Char) → Option Json
  | current, [] => some current
  | current, token :: rest =>
      match current with
      | .object _ => (current.member? (String.ofList (decode token))).bind fun next =>
          evaluate next rest
      | .array items => (arrayIndex? token).bind fun index => items[index]?.bind fun next =>
          evaluate next rest
      | _ => none

inductive Counted : Json → Prop
  | null : Counted .null
  | bool (value : Bool) : Counted (.bool value)
  | number (value : Decimal) : Counted (.number value)
  | text (value : String) : Counted (.text value)
  | array {items : List Json} (few : items.length < 2 ^ 31)
      (each : ∀ item ∈ items, Counted item) : Counted (.array items)
  | object {members : List (String × Json)} (each : ∀ entry ∈ members, Counted entry.2) :
      Counted (.object members)

/-- What `Resolve` returns: a null reference is a JSON null or nothing. -/
def read (root : Json) (pointer : Pointer) : Option Json :=
  (resolve root pointer.text).bind nonNull

/-- An index that fits an array, as `int.TryParse` spells it. -/
def spelled? (token : List Char) : Option Nat :=
  match parsedInt token with
  | none => none
  | some value => if 0 ≤ value ∧ value + 1 < 2 ^ 31 then some value.toNat else none

/-- `int.TryParse` takes the token for an index, which by the standard it is not. -/
def loose? (token : List Char) : Option Nat :=
  if arrayIndex? token = none then spelled? token else none

/-- No token is empty or a loose spelling of an index. -/
def Pointer.Plain (pointer : Pointer) : Prop :=
  ∀ token ∈ pointer.tokens, token ≠ [] ∧ loose? token = none

def Pointer.segments (pointer : Pointer) : List (List Char) :=
  pointer.tokens.filter fun token => token ≠ []

def Overlaps (left right : Pointer) : Prop :=
  left.path <+: right.path ∨ right.path <+: left.path

def Meets (left right : List Char) : Prop :=
  unescape left = unescape right ∨ ∃ index, spelled? left = some index ∧ spelled? right = some index

/-- Some document has a place both lead to, or through. -/
def Touches : List (List Char) → List (List Char) → Prop
  | left :: others, right :: rest => Meets left right ∧ Touches others rest
  | _, _ => True

/-! Spelling. -/

theorem not_slash_of_isToken {token : List Char} : isToken token = true → '/' ∉ token := by
  induction token using isToken.induct with
  | case1 => simp
  | case2 rest ih =>
      intro wellFormed
      simpa using ih wellFormed
  | case3 rest ih =>
      intro wellFormed
      simpa using ih wellFormed
  | case4 char rest _ _ ih =>
      intro wellFormed
      simp only [isToken, Bool.and_eq_true, decide_eq_true_eq] at wellFormed
      simp only [List.mem_cons, not_or]
      exact ⟨Ne.symm wellFormed.1.2, ih wellFormed.2⟩

theorem replaceEscape_cons {code replacement char : Char} {rest : List Char} (other : char ≠ '~') :
    replaceEscape code replacement (char :: rest) =
      char :: replaceEscape code replacement rest := by
  cases rest with
  | nil => rfl
  | cons next rest => simp [replaceEscape, other]

theorem unescape_cons {char : Char} {rest : List Char} (other : char ≠ '~') :
    unescape (char :: rest) = char :: unescape rest := by
  rw [unescape, replaceEscape_cons other, replaceEscape_cons other]
  rfl

/-- The two passes of `Unescape` do what the standard says. -/
theorem unescape_token {token : List Char} : isToken token = true →
    unescape token = decode token := by
  induction token using isToken.induct with
  | case1 => exact fun _ => rfl
  | case2 rest ih =>
      intro wellFormed
      have first : replaceEscape '1' '/' ('~' :: '0' :: rest) =
          '~' :: '0' :: replaceEscape '1' '/' rest := by
        rw [replaceEscape, if_neg (by decide), replaceEscape_cons (by decide)]
      rw [unescape, first, replaceEscape, if_pos (by decide), decode]
      exact congrArg _ (ih wellFormed)
  | case3 rest ih =>
      intro wellFormed
      rw [unescape, replaceEscape, if_pos (by decide), replaceEscape_cons (by decide), decode]
      exact congrArg _ (ih wellFormed)
  | case4 char rest zero one ih =>
      intro wellFormed
      simp only [isToken, Bool.and_eq_true, decide_eq_true_eq] at wellFormed
      rw [unescape_cons wellFormed.1.1, ih wellFormed.2, decode]
      · exact zero
      · exact one

theorem splitFrom_token {token rest : List Char} : ∀ {segment : List Char}, '/' ∉ token →
    splitFrom segment (token ++ rest) = splitFrom (token.reverse ++ segment) rest := by
  induction token with
  | nil => exact fun _ => rfl
  | cons char token ih =>
      intro segment plain
      rw [List.mem_cons, not_or] at plain
      rw [List.cons_append, splitFrom, if_neg (Ne.symm plain.1), ih plain.2]
      simp

theorem splitFrom_tokens {tokens : List (List Char)} : ∀ {segment : List Char},
    (∀ token ∈ tokens, '/' ∉ token) → splitFrom segment (tokens.flatMap ('/' :: ·)) =
      (if segment = [] then [] else [segment.reverse]) ++ tokens.filter fun token => token ≠ [] := by
  induction tokens with
  | nil =>
      intro segment _
      simp [splitFrom]
  | cons token rest ih =>
      intro segment plain
      rw [List.flatMap_cons, List.cons_append, splitFrom, if_pos rfl,
        splitFrom_token (plain token List.mem_cons_self), List.append_nil,
        ih fun other member => plain other (List.mem_cons_of_mem _ member)]
      by_cases empty : token = [] <;> by_cases read : segment = [] <;> simp [empty, read]

theorem split_text (pointer : Pointer) : split pointer.text = pointer.segments := by
  rw [split, Pointer.text, String.toList_ofList, splitFrom_tokens fun token member =>
    not_slash_of_isToken (pointer.wellFormed token member)]
  rfl

theorem read_eq (root : Json) (pointer : Pointer) :
    read root pointer = resolveSegments root pointer.segments := by
  rw [← split_text]
  unfold read resolve
  split
  · rename_i whole
    have none : split pointer.text = [] := by
      rcases whole with same | same <;> rw [same] <;> rfl
    rw [none]
    rfl
  · cases found : resolveSegments root (split pointer.text) with
    | none => rfl
    | some value => exact resolveSegments_present found

/-! Indices. -/

theorem parsedInt_digits {token : List Char} {value : Nat} (read : digitsValue token = some value) :
    parsedInt token = some (value : Int) := by
  obtain ⟨filled, digits⟩ := digitsValue_some read
  have reversed : ∀ char ∈ token.reverse, char.isDigit = true :=
    fun char member => digits char (List.mem_reverse.mp member)
  have visible : ∀ char ∈ token.reverse, decide (char.toNat = 0) = false := by
    intro char member
    have low := (Char.isDigit_iff_toNat.mp (reversed char member)).1
    have bottom : '0'.toNat = 48 := rfl
    exact decide_eq_false (by omega)
  rw [parsedInt, trimmed, dropWhile_solid visible, List.reverse_reverse,
    dropWhile_solid (fun char member => digit_not_space (digits char member)),
    dropWhile_solid (fun char member => digit_not_space (reversed char member)),
    List.reverse_reverse]
  cases token with
  | nil => exact absurd rfl filled
  | cons first rest =>
      rw [signedChars_plain (digits first List.mem_cons_self), read]
      rfl

theorem arrayIndex?_value {token : List Char} {index : Nat}
    (indexed : arrayIndex? token = some index) : parsedInt token = some (index : Int) := by
  unfold arrayIndex? at indexed
  split at indexed
  · rename_i zero
    rw [zero, ← Option.some.inj indexed]
    decide
  · split at indexed
    · exact parsedInt_digits indexed
    · cases indexed

theorem index?_eq {token : List Char} {count : Nat} (few : count < 2 ^ 31) :
    index? token count = (spelled? token).bind fun index =>
      if index < count then some index else none := by
  unfold index? spelled?
  cases parsedInt token with
  | none => rfl
  | some value =>
      simp only
      by_cases fits : 0 ≤ value ∧ value < 2 ^ 31 ∧ value < count
      · rw [if_pos fits, if_pos (by omega), Option.bind_some, if_pos (by omega)]
      · rw [if_neg fits]
        split
        · rw [Option.bind_some, if_neg (by omega)]
        · rfl

/-- On an array of the runtime the two readings of a token agree unless it is loose. -/
theorem index?_arrayIndex {token : List Char} {count : Nat} (few : count < 2 ^ 31)
    (strict : loose? token = none) :
    index? token count = (arrayIndex? token).bind fun index =>
      if index < count then some index else none := by
  cases indexed : arrayIndex? token with
  | none =>
      rw [loose?, if_pos indexed] at strict
      rw [index?_eq few, strict, Option.bind_none]
  | some index =>
      have parsed := arrayIndex?_value indexed
      simp only [index?, parsed, Option.bind_some]
      by_cases fits : index < count
      · rw [if_pos (by omega), if_pos fits, Int.toNat_natCast]
      · rw [if_neg (by omega), if_neg fits]

/-! Reading. -/

theorem Counted.items {items : List Json} (counted : Counted (.array items)) :
    items.length < 2 ^ 31 ∧ ∀ item ∈ items, Counted item := by
  cases counted with
  | array few each => exact ⟨few, each⟩

theorem Counted.members {members : List (String × Json)} (counted : Counted (.object members)) :
    ∀ entry ∈ members, Counted entry.2 := by
  cases counted with
  | object each => exact each

theorem Counted.member? {members : List (String × Json)} (counted : Counted (.object members))
    {key : String} {value : Json} (found : (Json.object members).member? key = some value) :
    Counted value := by
  obtain ⟨entry, listed, rfl⟩ := Option.map_eq_some_iff.mp found
  exact counted.members entry (List.mem_of_find?_eq_some listed)

theorem resolveSegments_plain {tokens : List (List Char)} : ∀ {root : Json}, Counted root →
    (∀ token ∈ tokens, isToken token = true) →
    (∀ token ∈ tokens, token ≠ [] ∧ loose? token = none) →
    resolveSegments root (tokens.filter fun token => token ≠ []) =
      (evaluate root tokens).bind nonNull := by
  induction tokens with
  | nil => exact fun _ _ _ => rfl
  | cons token rest ih =>
      intro root counted wellFormed plain
      obtain ⟨filled, strict⟩ := plain token List.mem_cons_self
      have later := fun next (nextCounted : Counted next) => @ih next nextCounted
        (fun other member => wellFormed other (List.mem_cons_of_mem _ member))
        (fun other member => plain other (List.mem_cons_of_mem _ member))
      rw [List.filter_cons_of_pos (by simpa using filled)]
      cases root with
      | object members =>
          simp only [resolveSegments, evaluate, unescape_token (wellFormed token List.mem_cons_self),
            Option.bind_assoc]
          refine Option.bind_congr fun next found => ?_
          exact later next (counted.member? found)
      | array items =>
          obtain ⟨few, each⟩ := counted.items
          simp only [resolveSegments, evaluate, index?_arrayIndex few strict, Option.bind_assoc]
          refine Option.bind_congr fun index _ => ?_
          by_cases inside : index < items.length
          · rw [if_pos inside, Option.bind_some]
            refine Option.bind_congr fun next found => ?_
            exact later next (each next (List.mem_of_getElem? found))
          · rw [if_neg inside, List.getElem?_eq_none (Nat.le_of_not_lt inside)]
            rfl
      | _ => rfl

def nest : List (List Char) → Json
  | [] => .text "leaf"
  | token :: rest =>
      if token = [] then nest rest
      else
        match loose? token with
        | some index => .array (List.replicate index .null ++ [nest rest])
        | none => .object [(name token, nest rest)]

theorem spelled?_below {token : List Char} {index : Nat} (spelled : spelled? token = some index) :
    index + 1 < 2 ^ 31 := by
  unfold spelled? at spelled
  split at spelled
  · cases spelled
  · split at spelled
    · rw [← Option.some.inj spelled]
      omega
    · cases spelled

theorem loose?_spelled {token : List Char} {index : Nat} (loose : loose? token = some index) :
    spelled? token = some index ∧ arrayIndex? token = none := by
  unfold loose? at loose
  split at loose
  · rename_i strict
    exact ⟨loose, strict⟩
  · cases loose

theorem Counted.single {index : Nat} (below : index + 1 < 2 ^ 31) {value : Json}
    (counted : Counted value) : Counted (.array (List.replicate index .null ++ [value])) := by
  refine .array (by simpa using below) fun item member => ?_
  rcases List.mem_append.mp member with filler | last
  · rw [List.eq_of_mem_replicate filler]
    exact .null
  · rw [List.mem_singleton.mp last]
    exact counted

theorem counted_nest (tokens : List (List Char)) : Counted (nest tokens) := by
  induction tokens with
  | nil => exact .text _
  | cons token rest ih =>
      unfold nest
      split
      · exact ih
      · split
        · rename_i index loose
          exact .single (spelled?_below (loose?_spelled loose).1) ih
        · exact .object (by simpa using ih)

theorem resolveSegments_single {token : List Char} {index : Nat} {value : Json}
    (spelled : spelled? token = some index) (rest : List (List Char)) :
    resolveSegments (.array (List.replicate index .null ++ [value])) (token :: rest) =
      resolveSegments value rest := by
  have length : (List.replicate index Json.null ++ [value]).length = index + 1 := by simp
  rw [resolveSegments, length, index?_eq (spelled?_below spelled), spelled, Option.bind_some,
    if_pos (Nat.lt_succ_self index), Option.bind_some, List.getElem?_append_right (by simp)]
  simp

theorem resolveSegments_member {token : List Char} {value : Json} (rest : List (List Char)) :
    resolveSegments (.object [(name token, value)]) (token :: rest) =
      resolveSegments value rest := by
  simp [resolveSegments, Json.member?, name]

theorem resolveSegments_nest (tokens : List (List Char)) :
    resolveSegments (nest tokens) (tokens.filter fun token => token ≠ []) = some (.text "leaf") := by
  induction tokens with
  | nil => rfl
  | cons token rest ih =>
      unfold nest
      by_cases empty : token = []
      · rw [if_pos empty, List.filter_cons_of_neg (by simpa using empty)]
        exact ih
      · rw [if_neg empty, List.filter_cons_of_pos (by simpa using empty)]
        cases loose : loose? token with
        | some index =>
            simp only
            rw [resolveSegments_single (loose?_spelled loose).1]
            exact ih
        | none =>
            simp only
            rw [resolveSegments_member]
            exact ih

theorem decode_ne_nil {token : List Char} (filled : token ≠ []) : decode token ≠ [] := by
  unfold decode
  split <;> simp_all

theorem evaluate_nest_empty (tokens more : List (List Char))
    (wellFormed : ∀ token ∈ tokens, isToken token = true) :
    evaluate (nest tokens) ([] :: more) = none := by
  induction tokens with
  | nil => rfl
  | cons token rest ih =>
      unfold nest
      by_cases empty : token = []
      · rw [if_pos empty]
        exact ih fun other member => wellFormed other (List.mem_cons_of_mem _ member)
      · rw [if_neg empty]
        cases loose : loose? token with
        | some index => rfl
        | none =>
            have named : name token ≠ "" := by
              intro same
              rw [name, unescape_token (wellFormed token List.mem_cons_self)] at same
              exact decode_ne_nil empty (String.ofList_injective same)
            simp [evaluate, decode, Json.member?, named]

theorem evaluate_nest {tokens : List (List Char)} (wellFormed : ∀ token ∈ tokens, isToken token = true)
    (spoiled : ∃ token ∈ tokens, token = [] ∨ loose? token ≠ none) :
    evaluate (nest tokens) tokens = none := by
  induction tokens with
  | nil =>
      obtain ⟨_, member, _⟩ := spoiled
      cases member
  | cons token rest ih =>
      have others := fun other member => wellFormed other (List.mem_cons_of_mem token member)
      by_cases empty : token = []
      · rw [empty, nest, if_pos rfl]
        exact evaluate_nest_empty rest rest others
      · rw [nest, if_neg empty]
        cases loose : loose? token with
        | some index => simp only [evaluate, (loose?_spelled loose).2, Option.bind_none]
        | none =>
            have later : ∃ token ∈ rest, token = [] ∨ loose? token ≠ none := by
              obtain ⟨other, member, bad⟩ := spoiled
              rcases List.mem_cons.mp member with rfl | inside
              · exact absurd bad (by simp [empty, loose])
              · exact ⟨other, inside, bad⟩
            simp only [evaluate, Json.member?, name,
              unescape_token (wellFormed token List.mem_cons_self)]
            simpa using ih others later

/-- `Resolve` evaluates a pointer as the standard does exactly if the pointer is plain. -/
theorem read_standard_iff (pointer : Pointer) :
    (∀ root, Counted root → read root pointer = (evaluate root pointer.tokens).bind nonNull) ↔
      pointer.Plain := by
  constructor
  · intro standard token member
    by_contra spoiled
    have same := standard _ (counted_nest pointer.tokens)
    rw [read_eq, Pointer.segments, resolveSegments_nest, evaluate_nest pointer.wellFormed] at same
    · cases same
    · refine ⟨token, member, ?_⟩
      by_cases empty : token = []
      · exact .inl empty
      · exact .inr fun strict => spoiled ⟨empty, strict⟩
  · intro plain root counted
    rw [read_eq]
    exact resolveSegments_plain counted pointer.wellFormed plain

/-! Writing. -/

theorem index?_unescape (segment : List Char) (count : Nat) :
    index? (unescape segment) count = index? segment count := by
  rw [index?, index?, parsedInt_unescape]

theorem index?_some {token : List Char} {count index : Nat} (few : count < 2 ^ 31)
    (indexed : index? token count = some index) : spelled? token = some index ∧ index < count := by
  rw [index?_eq few] at indexed
  obtain ⟨spelled, read, inside⟩ := Option.bind_eq_some_iff.mp indexed
  split at inside
  · rename_i below
    cases inside
    exact ⟨read, below⟩
  · cases inside

theorem index?_lt {token : List Char} {count index : Nat}
    (indexed : index? token count = some index) : index < count := by
  unfold index? at indexed
  split at indexed
  · cases indexed
  · split at indexed
    · rw [← Option.some.inj indexed]
      omega
    · cases indexed

/-- Where a value can be written on the way down, and what is written there. -/
theorem setSegments_cases {value root changed : Json} {segment : List Char}
    {rest : List (List Char)} (written : setSegments value (segment :: rest) root = .ok changed) :
    (∃ members next later, root = .object members ∧
      changed = .object (setMember (name segment) later members) ∧
      (rest = [] ∧ later = value ∨
        (Json.object members).member? (name segment) = some next ∧ rest ≠ [] ∧
          setSegments value rest next = .ok later)) ∨
    ∃ items index next later, root = .array items ∧ index? segment items.length = some index ∧
      items[index]? = some next ∧ changed = .array (items.set index later) ∧
      (rest = [] ∧ later = value ∨ rest ≠ [] ∧ setSegments value rest next = .ok later) := by
  cases rest with
  | nil =>
      cases root with
      | object members =>
          cases written
          exact .inl ⟨members, .null, value, rfl, rfl, .inl ⟨rfl, rfl⟩⟩
      | array items =>
          simp only [setSegments, index?_unescape] at written
          split at written
          · cases written
          · rename_i index indexed
            cases written
            have inside := List.getElem?_eq_getElem (index?_lt indexed)
            exact .inr ⟨items, index, _, value, rfl, indexed, inside, rfl, .inl ⟨rfl, rfl⟩⟩
      | _ => cases written
  | cons second others =>
      cases root with
      | object members =>
          simp only [setSegments] at written
          split at written
          · cases written
          · cases written
          · rename_i next _ found
            obtain ⟨later, inner, same⟩ := Runs.bind_eq_ok.mp written
            cases same
            exact .inl ⟨members, next, later, rfl, rfl, .inr ⟨found, List.cons_ne_nil _ _, inner⟩⟩
      | array items =>
          simp only [setSegments, index?_unescape] at written
          split at written
          · cases written
          · rename_i index indexed
            split at written
            · cases written
            · rename_i next found
              obtain ⟨later, inner, same⟩ := Runs.bind_eq_ok.mp written
              cases same
              exact .inr ⟨items, index, next, later, rfl, indexed, found, rfl,
                .inr ⟨List.cons_ne_nil _ _, inner⟩⟩
      | _ => cases written

theorem resolveSegments_setMember {members : List (String × Json)} {segment : List Char}
    {value : Json} (rest : List (List Char)) :
    resolveSegments (.object (setMember (name segment) value members)) (segment :: rest) =
      resolveSegments value rest := by
  rw [resolveSegments, show String.ofList (unescape segment) = name segment from rfl,
    member?_setMember, if_pos rfl, Option.bind_some]

theorem resolveSegments_set {items : List Json} {segment : List Char} {index : Nat} {value : Json}
    (indexed : index? segment items.length = some index) (rest : List (List Char)) :
    resolveSegments (.array (items.set index value)) (segment :: rest) =
      resolveSegments value rest := by
  rw [resolveSegments, List.length_set, indexed, Option.bind_some,
    List.getElem?_set_self (index?_lt indexed), Option.bind_some]

theorem resolveSegments_written {value : Json} {segments : List (List Char)} :
    ∀ {root changed : Json}, setSegments value segments root = .ok changed →
      resolveSegments changed segments = nonNull value := by
  induction segments with
  | nil =>
      intro root changed written
      cases written
  | cons segment rest ih =>
      intro root changed written
      rcases setSegments_cases written with ⟨members, next, later, rfl, rfl, last⟩ |
        ⟨items, index, next, later, rfl, indexed, found, rfl, last⟩
      · rw [resolveSegments_setMember]
        rcases last with ⟨rfl, rfl⟩ | ⟨_, _, inner⟩
        · rfl
        · exact ih inner
      · rw [resolveSegments_set indexed]
        rcases last with ⟨rfl, rfl⟩ | ⟨_, inner⟩
        · rfl
        · exact ih inner

theorem resolveSegments_apart {value : Json} {segments : List (List Char)} :
    ∀ {others : List (List Char)} {root changed : Json}, Counted root →
      setSegments value segments root = .ok changed → ¬ Touches segments others →
        resolveSegments changed others = resolveSegments root others := by
  induction segments with
  | nil =>
      intro others root changed _ written
      cases written
  | cons segment rest ih =>
      intro others root changed counted written apart
      cases others with
      | nil => exact absurd trivial apart
      | cons other following =>
          rcases setSegments_cases written with ⟨members, next, later, rfl, rfl, last⟩ |
            ⟨items, index, next, later, rfl, indexed, found, rfl, last⟩
          · rw [resolveSegments, resolveSegments,
              show String.ofList (unescape other) = name other from rfl, member?_setMember]
            by_cases same : name other = name segment
            · rw [if_pos same, Option.bind_some]
              have parts : ¬ Touches rest following :=
                fun touches => apart ⟨.inl (name_inj same).symm, touches⟩
              rcases last with ⟨rfl, rfl⟩ | ⟨here, _, inner⟩
              · exact absurd (by simp [Touches]) parts
              · rw [same, here, Option.bind_some]
                exact ih (counted.member? here) inner parts
            · rw [if_neg same]
          · obtain ⟨few, each⟩ := counted.items
            rw [resolveSegments, resolveSegments, List.length_set]
            refine Option.bind_congr fun place placed => ?_
            by_cases same : place = index
            · have parts : ¬ Touches rest following := fun touches =>
                apart ⟨.inr ⟨index, (index?_some few indexed).1, same ▸ (index?_some few placed).1⟩,
                  touches⟩
              rw [same, List.getElem?_set_self (index?_lt indexed), found, Option.bind_some,
                Option.bind_some]
              rcases last with ⟨rfl, rfl⟩ | ⟨_, inner⟩
              · exact absurd (by simp [Touches]) parts
              · exact ih (each next (List.mem_of_getElem? found)) inner parts
            · rw [List.getElem?_set_ne (Ne.symm same)]

/-! Two pointers that touch have a document in which writing through one shows in the other. -/

def stem : List (List Char) → Json
  | [] => .text "leaf"
  | token :: rest => .object [(name token, stem rest)]

def meeting : List (List Char) → List (List Char) → Json
  | left :: others, right :: rest =>
      if unescape left = unescape right then .object [(name left, meeting others rest)]
      else .array (List.replicate ((spelled? left).getD 0) .null ++ [meeting others rest])
  | [], others => stem others
  | others, [] => stem others

theorem counted_stem (segments : List (List Char)) : Counted (stem segments) := by
  induction segments with
  | nil => exact .text _
  | cons segment rest ih => exact .object (by simpa using ih)

theorem stem_present (segments : List (List Char)) : nonNull (stem segments) = some (stem segments) := by
  cases segments <;> rfl

theorem resolveSegments_stem (segments : List (List Char)) :
    resolveSegments (stem segments) segments = some (.text "leaf") := by
  induction segments with
  | nil => rfl
  | cons segment rest ih => rw [stem, resolveSegments_member, ih]

theorem meeting_present (left right : List (List Char)) :
    nonNull (meeting left right) = some (meeting left right) := by
  unfold meeting
  split
  · split <;> rfl
  · exact stem_present _
  · exact stem_present _

theorem counted_meeting {left : List (List Char)} : ∀ {right : List (List Char)},
    Touches left right → Counted (meeting left right) := by
  induction left with
  | nil => exact fun {right} _ => counted_stem right
  | cons segment others ih =>
      intro right touches
      cases right with
      | nil => exact counted_stem _
      | cons other rest =>
          obtain ⟨meets, touches⟩ := touches
          unfold meeting
          split
          · exact .object (by simpa using ih touches)
          · rename_i different
            obtain ⟨index, spelled, _⟩ := meets.resolve_left different
            rw [spelled, Option.getD_some]
            exact .single (spelled?_below spelled) (ih touches)

theorem setSegments_member {segment : List Char} {rest : List (List Char)} {inner changed : Json}
    (filled : rest ≠ []) (present : nonNull inner = some inner)
    (written : setSegments .null rest inner = .ok changed) :
    setSegments .null (segment :: rest) (.object [(name segment, inner)]) =
      .ok (.object [(name segment, changed)]) := by
  obtain ⟨second, others, rfl⟩ := List.exists_cons_of_ne_nil filled
  have found : (Json.object [(name segment, inner)]).member? (String.ofList (unescape segment)) =
      some inner := by simp [Json.member?, name]
  simp only [setSegments, found]
  cases inner <;> simp_all [setMember, name, nonNull, Bind.bind, Except.bind]

theorem setSegments_single {segment : List Char} {index : Nat} {rest : List (List Char)}
    {inner changed : Json} (spelled : spelled? segment = some index) (filled : rest ≠ [])
    (written : setSegments .null rest inner = .ok changed) :
    setSegments .null (segment :: rest) (.array (List.replicate index .null ++ [inner])) =
      .ok (.array (List.replicate index .null ++ [changed])) := by
  obtain ⟨second, others, rfl⟩ := List.exists_cons_of_ne_nil filled
  have length : (List.replicate index Json.null ++ [inner]).length = index + 1 := by simp
  have indexed : index? (unescape segment) (index + 1) = some index := by
    rw [index?_unescape, index?_eq (spelled?_below spelled), spelled, Option.bind_some,
      if_pos (Nat.lt_succ_self index)]
  have found : (List.replicate index Json.null ++ [inner])[index]? = some inner := by
    rw [List.getElem?_append_right (by simp)]
    simp
  simp only [setSegments, length, indexed, found, written, Bind.bind, Except.bind]
  rw [List.set_append_right _ _ (by simp)]
  simp

theorem setSegments_stem {segments : List (List Char)} (filled : segments ≠ []) :
    ∃ changed, setSegments .null segments (stem segments) = .ok changed := by
  induction segments with
  | nil => exact absurd rfl filled
  | cons segment rest ih =>
      cases rest with
      | nil => exact ⟨_, rfl⟩
      | cons second others =>
          obtain ⟨changed, written⟩ := ih (List.cons_ne_nil _ _)
          exact ⟨_, setSegments_member (List.cons_ne_nil _ _) (stem_present _) written⟩

theorem meeting_written {left : List (List Char)} : ∀ {right : List (List Char)}, left ≠ [] →
    Touches left right → ∃ changed, setSegments .null left (meeting left right) = .ok changed ∧
      resolveSegments changed right ≠ resolveSegments (meeting left right) right := by
  induction left with
  | nil => exact fun filled => absurd rfl filled
  | cons segment others ih =>
      intro right _ touches
      cases right with
      | nil =>
          obtain ⟨changed, written⟩ := setSegments_stem (List.cons_ne_nil segment others)
          refine ⟨changed, written, fun same => ?_⟩
          have after := resolveSegments_written written
          have before := resolveSegments_stem (segment :: others)
          rw [show meeting (segment :: others) [] = stem (segment :: others) from rfl,
            resolveSegments, resolveSegments, stem_present] at same
          obtain ⟨rfl, _⟩ := nonNull_some same
          rw [before] at after
          cases after
      | cons other rest =>
          obtain ⟨meets, touches⟩ := touches
          unfold meeting
          split
          · rename_i same
            have named : name segment = name other := congrArg String.ofList same
            cases others with
            | nil =>
                refine ⟨.object [(name segment, .null)], by simp [setSegments, setMember, name], ?_⟩
                rw [named, resolveSegments_member, resolveSegments_member, meeting,
                  resolveSegments_stem]
                cases rest <;> simp [resolveSegments, nonNull]
            | cons second following =>
                obtain ⟨changed, written, differs⟩ := ih (List.cons_ne_nil _ _) touches
                refine ⟨_, setSegments_member (List.cons_ne_nil _ _) (meeting_present _ _) written, ?_⟩
                rwa [named, resolveSegments_member, resolveSegments_member]
          · rename_i different
            obtain ⟨index, spelled, alike⟩ := meets.resolve_left different
            rw [spelled, Option.getD_some]
            cases others with
            | nil =>
                refine ⟨.array (List.replicate index .null ++ [.null]), ?_, ?_⟩
                · have indexed : index? (unescape segment) (index + 1) = some index := by
                    rw [index?_unescape, index?_eq (spelled?_below spelled), spelled,
                      Option.bind_some, if_pos (Nat.lt_succ_self index)]
                  simp only [setSegments, List.length_append, List.length_replicate,
                    List.length_singleton, indexed]
                  rw [List.set_append_right _ _ (by simp)]
                  simp
                · rw [resolveSegments_single alike, resolveSegments_single alike, meeting,
                    resolveSegments_stem]
                  cases rest <;> simp [resolveSegments, nonNull]
            | cons second following =>
                obtain ⟨changed, written, differs⟩ := ih (List.cons_ne_nil _ _) touches
                refine ⟨_, setSegments_single spelled (List.cons_ne_nil _ _) written, ?_⟩
                rwa [resolveSegments_single alike, resolveSegments_single alike]

theorem set_written {root changed value : Json} {pointer : Pointer}
    (written : set root pointer.text value = .ok changed) :
    setSegments value pointer.segments root = .ok changed := by
  rw [← split_text]
  exact (set_ok written).1

/-- What a write through the left pointer may not do to a reading of the right one. -/
def WritesApart (left right : Pointer) : Prop :=
  ∀ root value changed, Counted root → set root left.text value = .ok changed →
    read changed left = nonNull value ∧
      (¬ Overlaps left right → read changed right = read root right)

theorem writesApart_iff (left right : Pointer) : WritesApart left right ↔
    left.segments = [] ∨ Overlaps left right ∨ ¬ Touches left.segments right.segments := by
  constructor
  · intro writes
    by_contra met
    simp only [not_or, not_not] at met
    obtain ⟨filled, apart, touches⟩ := met
    obtain ⟨changed, written, differs⟩ := meeting_written filled touches
    have whole : left.text ≠ "/" := by
      intro same
      rw [← split_text, same] at filled
      exact filled rfl
    have accepted : set (meeting left.segments right.segments) left.text .null = .ok changed := by
      rw [set, if_neg whole, split_text]
      exact written
    have same := (writes _ _ _ (counted_meeting touches) accepted).2 apart
    rw [read_eq, read_eq] at same
    exact differs same
  · intro parts root value changed counted accepted
    have written := set_written accepted
    refine ⟨by rw [read_eq, resolveSegments_written written], fun apart => ?_⟩
    rw [read_eq, read_eq]
    rcases parts with none | overlap | touchless
    · rw [none] at written
      cases written
    · exact absurd overlap apart
    · exact resolveSegments_apart counted written touchless

/--
`Resolve` is the evaluation of RFC 6901 for exactly the plain pointers; what `Set` writes it reads
back, and it reads as before what does not overlap, except where the segments of the two touch.
-/
theorem pointers_standard (pointer other : Pointer) :
    ((∀ root, Counted root →
        read root pointer = (evaluate root pointer.tokens).bind nonNull) ↔ pointer.Plain) ∧
      (WritesApart pointer other ↔ pointer.segments = [] ∨ Overlaps pointer other ∨
        ¬ Touches pointer.segments other.segments) :=
  ⟨read_standard_iff pointer, writesApart_iff pointer other⟩

def unnamed : Pointer := ⟨[['a'], []], by decide⟩

/-- The member without a name is not found, and the object it is in is. -/
theorem unnamed_member_missed :
    ¬ ∀ (pointer : Pointer) (root : Json), Counted root →
      read root pointer = (evaluate root pointer.tokens).bind nonNull := by
  intro standard
  have counted : Counted (.object [("a", .object [("", .bool true)])]) :=
    .object (by simpa using Counted.object (by simpa using Counted.bool true))
  have same := standard unnamed _ counted
  rw [read_eq] at same
  revert same
  decide

end JsonPointer

end PaymentWorkflow
