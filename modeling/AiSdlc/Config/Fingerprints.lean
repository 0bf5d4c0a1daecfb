import AiSdlc.Js.JsonText
import AiSdlc.Js.Lines
import AiSdlc.Js.Objects
import AiSdlc.Js.Text
import Mathlib.Data.List.Sort

/-! The fingerprint of a configuration: the digest of its canonical text, in which the members of
each object are sorted by their keys.
-/

namespace AiSdlc.Config

open AiSdlc.Js

variable {Number : Type}

/-- `Object.keys(value).sort()`: by their code units. -/
def sortedKeys {α : Type} (members : List (CodeUnits × α)) : List CodeUnits :=
  (members.map Prod.fst).insertionSort (· ≤ ·)

mutual

/-- `canonicalize`, given the texts of numbers. -/
def canonicalize (numberText : Number → CodeUnits) : Json Number → CodeUnits
  | .null => codeUnits "null"
  | .bool true => codeUnits "true"
  | .bool false => codeUnits "false"
  | .number value => numberText value
  | .string units => quote units
  | .array items =>
      0x5B :: [0x2C].intercalate (canonicalizeItems numberText items) ++ [0x5D]
  | .object members =>
      let texts := canonicalizeMembers numberText members
      let entries := (sortedKeys members).map fun key =>
        quote key ++ 0x3A :: (texts.lookup key).getD []
      0x7B :: [0x2C].intercalate entries ++ [0x7D]
termination_by structural value => value

def canonicalizeItems (numberText : Number → CodeUnits) : List (Json Number) → List CodeUnits
  | [] => []
  | item :: items => canonicalize numberText item :: canonicalizeItems numberText items
termination_by structural items => items

/-- The values of the members, canonicalized. -/
def canonicalizeMembers (numberText : Number → CodeUnits)
    : List (CodeUnits × Json Number) → List (CodeUnits × CodeUnits)
  | [] => []
  | (key, value) :: members =>
      (key, canonicalize numberText value) :: canonicalizeMembers numberText members
termination_by structural members => members

end

/-- `createHash('sha256').update(canonical).digest('hex')` is a function of the text. -/
def sha256OfCanonicalJson (sha256 : CodeUnits → String) (numberText : Number → CodeUnits)
    (value : Json Number)
    : String :=
  sha256 (canonicalize numberText value)

/-- The characters of numbers: digits, signs, the point and the e of an exponent. -/
def numericUnits : CodeUnits :=
  [0x30, 0x31, 0x32, 0x33, 0x34, 0x35, 0x36, 0x37, 0x38, 0x39, 0x2B, 0x2D, 0x2E, 0x65]

/-- The texts of numbers differ, and consist of the characters of numbers. -/
structure NumberTexts (numberText : Number → CodeUnits) : Prop where
  injective : Function.Injective numberText
  nonempty : ∀ number, numberText number ≠ []
  numeric : ∀ number, ∀ unit ∈ numberText number, unit ∈ numericUnits

section Canonical

variable {numberText : Number → CodeUnits} {value : Json Number} {items : List (Json Number)}
  {members others : List (CodeUnits × Json Number)} {key : CodeUnits}

theorem canonicalizeItems_eq : canonicalizeItems numberText items
    = items.map (canonicalize numberText) := by
  induction items with
  | nil => rfl
  | cons item items ih => rw [canonicalizeItems, ih, List.map_cons]

theorem lookup_canonicalizeMembers
    : (canonicalizeMembers numberText members).lookup key
      = (members.lookup key).map (canonicalize numberText) := by
  induction members with
  | nil => rfl
  | cons member members ih =>
      obtain ⟨held, value⟩ := member
      rw [canonicalizeMembers, lookup_entry, lookup_entry, ih]
      split <;> rfl

theorem mem_sortedKeys : key ∈ sortedKeys members ↔ members.lookup key ≠ none := by
  rw [sortedKeys, List.mem_insertionSort, ne_eq, List.lookup_eq_none_iff]
  simp

theorem sortedKeys_eq (distinct : (members.map Prod.fst).Nodup)
    (distinct' : (others.map Prod.fst).Nodup)
    (same : ∀ key, key ∈ sortedKeys members ↔ key ∈ sortedKeys others)
    : sortedKeys members = sortedKeys others := by
  have perm : (sortedKeys members).Perm (sortedKeys others) := by
    refine (List.perm_ext_iff_of_nodup ?_ ?_).mpr same
    · exact (List.perm_insertionSort _ _).nodup_iff.mpr distinct
    · exact (List.perm_insertionSort _ _).nodup_iff.mpr distinct'
  exact perm.eq_of_pairwise' (List.pairwise_insertionSort _ _) (List.pairwise_insertionSort _ _)

/-- The kind of values whose texts begin with a code unit, if there is one. -/
def leadingKind (unit : Nat) : Nat :=
  if unit ∈ numericUnits then 0
  else
    match unit with
    | 0x6E => 1
    | 0x74 => 2
    | 0x66 => 3
    | 0x22 => 4
    | 0x5B => 5
    | 0x7B => 6
    | _ => 7

def kind : Json Number → Nat
  | .number _ => 0
  | .null => 1
  | .bool true => 2
  | .bool false => 3
  | .string _ => 4
  | .array _ => 5
  | .object _ => 6

theorem canonicalize_starts (numbers : NumberTexts numberText) (value : Json Number)
    : ∃ unit more,
        canonicalize numberText value = unit :: more ∧ leadingKind unit = kind value := by
  cases value with
  | null => exact ⟨0x6E, codeUnits "ull", rfl, rfl⟩
  | bool value =>
      cases value with
      | true => exact ⟨0x74, codeUnits "rue", rfl, rfl⟩
      | false => exact ⟨0x66, codeUnits "alse", rfl, rfl⟩
  | number value =>
      obtain ⟨unit, more, starts⟩ := List.exists_cons_of_ne_nil (numbers.nonempty value)
      have numeric := numbers.numeric value unit (starts ▸ List.mem_cons_self)
      exact ⟨unit, more, starts, if_pos numeric⟩
  | string units => exact ⟨_, _, rfl, rfl⟩
  | array items => exact ⟨_, _, rfl, rfl⟩
  | object members => exact ⟨_, _, rfl, rfl⟩

theorem canonicalize_not_closing (numbers : NumberTexts numberText) (value : Json Number)
    : ∃ unit more, canonicalize numberText value = unit :: more ∧ unit ≠ 0x5D := by
  obtain ⟨unit, more, starts, known⟩ := canonicalize_starts numbers value
  refine ⟨unit, more, starts, ?_⟩
  rintro rfl
  have least : kind value < 7 := by
    cases value with
    | bool value => cases value <;> simp [kind]
    | _ => simp [kind]
  have other : leadingKind 0x5D = 7 := by decide
  omega

/-- Two values of one kind. -/
inductive Alike : Json Number → Json Number → Prop
  | null : Alike .null .null
  | bool (value : Bool) : Alike (.bool value) (.bool value)
  | number (value other : Number) : Alike (.number value) (.number other)
  | string (units others : CodeUnits) : Alike (.string units) (.string others)
  | array (items others : List (Json Number)) : Alike (.array items) (.array others)
  | object (members others : List (CodeUnits × Json Number))
      : Alike (.object members) (.object others)

theorem alike_of_kind {value other : Json Number} (same : kind value = kind other)
    : Alike value other := by
  cases value with
  | bool value => cases value <;> cases other with
    | bool other => cases other <;> first | exact .bool _ | cases same
    | _ => cases same
  | _ =>
      cases other with
      | bool other => cases other <;> cases same
      | _ => first | constructor | cases same

theorem alike_of_texts (numbers : NumberTexts numberText) {value other : Json Number}
    {rest rest' : CodeUnits}
    (same : canonicalize numberText value ++ rest = canonicalize numberText other ++ rest')
    : Alike value other := by
  obtain ⟨unit, more, starts, known⟩ := canonicalize_starts numbers value
  obtain ⟨unit', more', starts', known'⟩ := canonicalize_starts numbers other
  rw [starts, starts'] at same
  obtain rfl : unit = unit' := (List.cons.inj same).1
  exact alike_of_kind (known.symm.trans known')

theorem number_inj (numbers : NumberTexts numberText) {value other : Number}
    {rest rest' : CodeUnits} (ends : Delimits rest) (ends' : Delimits rest')
    (same : numberText value ++ rest = numberText other ++ rest')
    : value = other ∧ rest = rest' := by
  have read (value : Number) {rest : CodeUnits} (ends : Delimits rest)
      : (numberText value ++ rest).takeWhile (· ∈ numericUnits) = numberText value := by
    rw [List.takeWhile_append_of_pos fun unit member =>
      decide_eq_true (numbers.numeric value unit member)]
    cases rest with
    | nil => simp
    | cons unit rest =>
        have other : unit ∉ numericUnits := by
          rcases ends unit rfl with rfl | rfl | rfl <;> decide
        rw [List.takeWhile_cons_of_neg (by simpa using other), List.append_nil]
  have texts := congrArg (List.takeWhile (· ∈ numericUnits)) same
  rw [read value ends, read other ends'] at texts
  obtain rfl := numbers.injective texts
  exact ⟨rfl, List.append_cancel_left same⟩

/-- Canonical texts are told apart, whatever follows them. -/
def Told (numberText : Number → CodeUnits) (value : Json Number) : Prop :=
  value.WellFormed → ∀ other : Json Number, other.WellFormed →
    TellsApart (canonicalize numberText) (canonicalize numberText) Json.Same value other

/-- Related lists have related items at each index, by induction over the lists. -/
theorem rel_getElem? {α : Type} {related : α → α → Prop} {items others : List α}
    (each : List.Forall₂ related items others) (index : Nat)
    : Option.Rel related items[index]? others[index]? := by
  induction each generalizing index with
  | nil => exact .none
  | cons first _ ih =>
      cases index with
      | zero => exact .some first
      | succ index => exact ih index

theorem told_array (numbers : NumberTexts numberText)
    (told : ∀ item ∈ items, Told numberText item)
    : Told numberText (.array items) := by
  intro wellFormed other wellFormed' rest rest' _ _ same
  cases alike_of_texts numbers same with
  | array _ others =>
      simp only [canonicalize, canonicalizeItems_eq, List.cons_append, List.append_assoc,
        List.nil_append, List.cons.injEq, true_and] at same
      obtain ⟨related, rfl⟩ := joined_inj (.inl rfl)
        (fun item _ => canonicalize_not_closing numbers item)
        (fun item _ => canonicalize_not_closing numbers item)
        (fun item member item' member' => told item member (wellFormed.item member) item'
          (wellFormed'.item member')) same
      exact ⟨Json.same_array_iff.mpr ⟨related.length_eq, rel_getElem? related⟩, rfl⟩

/-- A member of an object, as it is canonicalized. -/
def entryText (numberText : Number → CodeUnits) (members : List (CodeUnits × Json Number))
    (key : CodeUnits)
    : CodeUnits :=
  quote key ++ 0x3A :: ((members.lookup key).map (canonicalize numberText)).getD []

theorem canonicalize_object
    : canonicalize numberText (.object members)
      = 0x7B :: [0x2C].intercalate ((sortedKeys members).map (entryText numberText members))
        ++ [0x7D] := by
  simp only [canonicalize, lookup_canonicalizeMembers]
  rfl

theorem told_object (numbers : NumberTexts numberText)
    (told : ∀ member ∈ members, Told numberText member.2)
    : Told numberText (.object members) := by
  intro wellFormed other wellFormed' rest rest' _ _ same
  cases alike_of_texts numbers same with
  | object _ others =>
      simp only [canonicalize_object, List.cons_append, List.append_assoc,
        List.nil_append, List.cons.injEq, true_and] at same
      have opens (members : List (CodeUnits × Json Number)) (key : CodeUnits)
          : ∃ unit more, entryText numberText members key = unit :: more ∧ unit ≠ 0x7D :=
        ⟨0x22, _, rfl, by decide⟩
      have apart : ∀ key ∈ sortedKeys members, ∀ key' ∈ sortedKeys others,
          TellsApart (entryText numberText members) (entryText numberText others)
            (fun key key' => key = key'
              ∧ Option.Rel Json.Same (members.lookup key) (others.lookup key')) key key' := by
        intro key member key' member' rest rest' ends ends' entries
        simp only [entryText, List.append_assoc] at entries
        obtain ⟨rfl, values⟩ := quote_append_inj entries
        obtain ⟨value, found⟩ := Option.ne_none_iff_exists'.mp (mem_sortedKeys.mp member)
        obtain ⟨value', found'⟩ := Option.ne_none_iff_exists'.mp (mem_sortedKeys.mp member')
        have held := Json.mem_of_lookup found
        have held' := Json.mem_of_lookup found'
        rw [found, found'] at values
        obtain ⟨-, values⟩ := List.cons.inj values
        obtain ⟨also, behind⟩ := told (key, value) held (wellFormed.member held) value'
          (wellFormed'.member held') _ _ ends ends' values
        refine ⟨⟨rfl, ?_⟩, behind⟩
        rw [found, found']
        exact .some also
      obtain ⟨related, rfl⟩ := joined_inj (.inr rfl) (fun key _ => opens members key)
        (fun key _ => opens others key) apart same
      refine ⟨Json.same_object_iff.mpr fun key => ?_, rfl⟩
      have keys : sortedKeys members = sortedKeys others :=
        List.forall₂_eq_eq_eq ▸ related.imp fun _ _ => And.left
      by_cases member : key ∈ sortedKeys members
      · rw [← keys] at related
        exact (List.forall₂_same.mp related key member).2
      · have absent := not_not.mp (mem_sortedKeys.not.mp member)
        have absent' := not_not.mp (mem_sortedKeys.not.mp (keys ▸ member))
        rw [absent, absent']
        exact .none

/-- Every value is told apart, by induction over the value. -/
theorem told (numbers : NumberTexts numberText) (value : Json Number) : Told numberText value := by
  induction value using Json.induct with
  | null =>
      intro _ other _ rest rest' _ _ same
      cases alike_of_texts numbers same
      exact ⟨Json.same_refl _, List.append_cancel_left same⟩
  | bool value =>
      intro _ other _ rest rest' _ _ same
      cases alike_of_texts numbers same
      exact ⟨Json.same_refl _, List.append_cancel_left same⟩
  | number value =>
      intro _ other _ rest rest' ends ends' same
      cases alike_of_texts numbers same with
      | number _ other =>
          obtain ⟨rfl, behind⟩ := number_inj numbers ends ends' same
          exact ⟨Json.same_refl _, behind⟩
  | string units =>
      intro _ other _ rest rest' _ _ same
      cases alike_of_texts numbers same with
      | string _ others =>
          obtain ⟨rfl, behind⟩ := quote_append_inj same
          exact ⟨Json.same_refl _, behind⟩
  | array items each => exact told_array numbers each
  | object members each => exact told_object numbers each

theorem alike_of_same {value other : Json Number} (same : value.Same other)
    : Alike value other := by
  have nodes := same.node_eq
  cases value <;> cases other <;>
    first | exact .array _ _ | exact .object _ _ | cases nodes <;> constructor

/-- A function has the same values where it has them on related ones. -/
theorem map_eq_of_rel {α β : Type} {related : α → α → Prop} {first second : Option α} {f : α → β}
    (rel : Option.Rel related first second)
    (same : ∀ item item', first = some item → second = some item' → related item item'
      → f item = f item')
    : first.map f = second.map f := by
  cases rel with
  | none => rfl
  | some also => exact congrArg some (same _ _ rfl rfl also)

/-- The same values have the same text, by induction over the value. -/
theorem canonicalize_eq {value other : Json Number} (wellFormed : value.WellFormed)
    (wellFormed' : other.WellFormed) (same : value.Same other)
    : canonicalize numberText value = canonicalize numberText other := by
  induction value using Json.induct generalizing other with
  | null =>
      cases alike_of_same same
      rfl
  | bool value =>
      cases alike_of_same same
      rfl
  | number value =>
      cases alike_of_same same with
      | number _ other => rw [JsonNode.number.inj same.node_eq]
  | string units =>
      cases alike_of_same same with
      | string _ others => rw [Json.eq_of_same_string same]
  | array items ih =>
      cases alike_of_same same with
      | array _ others =>
          obtain ⟨lengths, related⟩ := Json.same_array_iff.mp same
          have texts : items.map (canonicalize numberText)
              = others.map (canonicalize numberText) := by
            refine List.ext_getElem? fun index => ?_
            rw [List.getElem?_map, List.getElem?_map]
            refine map_eq_of_rel (related index) fun item item' found found' also => ?_
            have held := List.mem_of_getElem? found
            exact ih item held (wellFormed.item held)
              (wellFormed'.item (List.mem_of_getElem? found')) also
          simp only [canonicalize, canonicalizeItems_eq, texts]
  | object members ih =>
      cases alike_of_same same with
      | object _ others =>
          have related := Json.same_object_iff.mp same
          have keys : sortedKeys members = sortedKeys others := by
            refine sortedKeys_eq wellFormed.nodup wellFormed'.nodup fun key => ?_
            rw [mem_sortedKeys, mem_sortedKeys]
            have also := map_eq_of_rel (related key) fun _ _ _ _ _ => (rfl : () = ())
            rw [ne_eq, ne_eq, ← Option.map_eq_none_iff (f := fun _ => ()), also,
              Option.map_eq_none_iff]
          have entries : entryText numberText members = entryText numberText others := by
            funext key
            refine congrArg (fun text : Option CodeUnits => quote key ++ 0x3A :: text.getD []) ?_
            refine map_eq_of_rel (related key) fun value value' found found' also => ?_
            have held := Json.mem_of_lookup found
            exact ih (key, value) held (wellFormed.member held)
              (wellFormed'.member (Json.mem_of_lookup found')) also
          rw [canonicalize_object, canonicalize_object, keys, entries]

/-- Texts of numbers and quoted strings have no single surrogate, and so no text has. -/
theorem paired_canonicalize (numbers : NumberTexts numberText) (value : Json Number)
    : Paired (canonicalize numberText value) := by
  have words : ∀ word ∈ ["null", "true", "false"], ∀ unit ∈ codeUnits word, unit < 0x80 := by
    decide
  induction value using Json.induct with
  | null => exact paired_of_ascii (words "null" (by simp))
  | bool value =>
      cases value with
      | true => exact paired_of_ascii (words "true" (by simp))
      | false => exact paired_of_ascii (words "false" (by simp))
  | number value =>
      have ascii : ∀ unit ∈ numericUnits, unit < 0x80 := by decide
      exact paired_of_ascii fun unit member => ascii unit (numbers.numeric value unit member)
  | string units => exact paired_quote units
  | array items ih =>
      rw [canonicalize, canonicalizeItems_eq]
      have texts : Paired ([0x2C].intercalate (items.map (canonicalize numberText))) :=
        paired_intercalate (List.forall_mem_map.mpr ih)
      exact (Paired.single rfl rfl texts).append (.single rfl rfl .nil)
  | object members ih =>
      rw [canonicalize_object]
      have entry (key : CodeUnits) : Paired (entryText numberText members key) := by
        refine (paired_quote key).append (.single rfl rfl ?_)
        cases found : members.lookup key with
        | none => exact .nil
        | some value => exact ih (key, value) (Json.mem_of_lookup found)
      have texts : Paired ([0x2C].intercalate
          ((sortedKeys members).map (entryText numberText members))) :=
        paired_intercalate (List.forall_mem_map.mpr fun key _ => entry key)
      exact (Paired.single rfl rfl texts).append (.single rfl rfl .nil)

end Canonical

/-- The fingerprints of two configurations differ where the configurations do, other than by the
order of members.
-/
theorem fingerprints_separate {numberText : Number → CodeUnits} {sha256 : CodeUnits → String}
    (numbers : NumberTexts numberText)
    (collisionFree : ∀ text text', Paired text → Paired text' → sha256 text = sha256 text'
      → text = text')
    {value other : Json Number} (wellFormed : value.WellFormed) (wellFormed' : other.WellFormed)
    : (canonicalize numberText value = canonicalize numberText other ↔ value.Same other)
      ∧ (sha256OfCanonicalJson sha256 numberText value
          = sha256OfCanonicalJson sha256 numberText other
        ↔ value.Same other) := by
  have told : canonicalize numberText value = canonicalize numberText other ↔ value.Same other := by
    refine ⟨fun same => ?_, canonicalize_eq wellFormed wellFormed'⟩
    have nothing : Delimits [] := fun _ first => by cases first
    exact (told numbers value wellFormed other wellFormed' [] [] nothing nothing
      (congrArg (· ++ []) same)).1
  refine ⟨told, fun same => told.mp ?_, fun same => congrArg sha256 (told.mpr same)⟩
  exact collisionFree _ _ (paired_canonicalize numbers value)
    (paired_canonicalize numbers other) same

/-- A text of its own for each list of code units. -/
def unaryText (text : CodeUnits) : String :=
  .ofList ('.' :: (text.map fun unit => List.replicate unit 'u').flatMap (· ++ ['.']))

/-- The digests of two texts, and other texts for the others. -/
def digest (text : CodeUnits) : String :=
  if text = codeUnits "\x7b\"a\":1\x7d" then
    "015abd7f5cc57a2dd94b7590f04ad8084273905ee33ec5cebeae62276a97f862"
  else if text = codeUnits "\x7b\"a\":[1]\x7d" then
    "ff5464c34287e9ec505b9f76573a4cb0bd408c96c6537b458fdd993fc7c615ce"
  else unaryText text

theorem unaryText_injective : Function.Injective unaryText := by
  intro text other same
  have free (text : CodeUnits)
      : ∀ part ∈ text.map fun unit => List.replicate unit 'u', '.' ∉ part := by
    intro part member held
    obtain ⟨unit, -, rfl⟩ := List.mem_map.mp member
    exact absurd (List.eq_of_mem_replicate held) (by decide)
  have parts := (List.cons.inj (String.ofList_injective same)).2
  have equal := (parts_inj (free text) (List.not_mem_nil) (free other) (List.not_mem_nil)
    (congrArg (· ++ []) parts)).1
  refine List.map_injective_iff.mpr (fun unit other same => ?_) equal
  simpa using congrArg List.length same

theorem digest_injective : Function.Injective digest := by
  have starts (text : CodeUnits) : (unaryText text).toList.head? = some '.' := by
    simp [unaryText]
  have differs {first second : String} (heads : first.toList.head? ≠ second.toList.head?)
      : first ≠ second :=
    fun same => heads (congrArg (·.toList.head?) same)
  intro text other same
  unfold digest at same
  split_ifs at same with isFirst isFirst' isSecond' isSecond isFirst' isSecond' isFirst' isSecond'
  · exact isFirst.trans isFirst'.symm
  · exact absurd same (by decide)
  · exact absurd same (differs (by rw [starts]; decide))
  · exact absurd same (by decide)
  · exact isSecond.trans isSecond'.symm
  · exact absurd same (differs (by rw [starts]; decide))
  · exact absurd same (differs (by rw [starts]; decide))
  · exact absurd same (differs (by rw [starts]; decide))
  · exact unaryText_injective same

/-- The digits as numbers. -/
def digitText (digit : Fin 10) : CodeUnits :=
  [0x30 + digit.val]

theorem digitText_numberTexts : NumberTexts digitText :=
  {
    injective := by
      intro digit other same
      have values := List.singleton_inj.mp same
      exact Fin.ext (by omega)
    nonempty := fun _ => List.cons_ne_nil _ _
    numeric := by decide
  }

/-- A number and an array of it have different fingerprints. -/
theorem fingerprints_separate_array
    : sha256OfCanonicalJson digest digitText (.object [([0x61], .number 1)])
      ≠ sha256OfCanonicalJson digest digitText (.object [([0x61], .array [.number 1])]) := by
  have wellFormed (value : Json (Fin 10)) (inner : value.WellFormed)
      : (Json.object [([0x61], value)]).WellFormed :=
    Json.wellFormed_object (by simp) (by simpa using inner)
  have number : (Json.number 1 : Json (Fin 10)).WellFormed := by
    intro path members found
    cases path with
    | nil => cases found
    | cons step path => cases step <;> cases found
  have array : (Json.array [.number 1] : Json (Fin 10)).WellFormed :=
    Json.wellFormed_array (by simpa using number)
  refine (fingerprints_separate digitText_numberTexts (fun _ _ _ _ same => digest_injective same)
    (wellFormed _ number) (wellFormed _ array)).2.not.mpr ?_
  intro same
  have nodes := same [.key [0x61]]
  cases nodes

end AiSdlc.Config
