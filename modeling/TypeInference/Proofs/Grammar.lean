import Mathlib.Data.List.ReduceOption
import Mathlib.Data.List.TakeWhile
import TypeInference.Clinic

/-!
# The grammar of clinic signatures

A signature is a concatenation of items.  A text may be cut into items in several ways,
since a word can be cut into shorter ones, but there is only one way in which no word is
followed by more of it.  Signatures are read in that way.
-/

namespace TypeInference

namespace Clinic

open Text

/-- The separators that may stand in front of a word. -/
def openers : List String :=
  ["", ",", ", ", "[", "[,", "[ ", "[, "]

/-- A word: at least one character, and nothing but word characters. -/
def IsWord (name : List Char) : Prop :=
  name ≠ [] ∧ ∀ character ∈ name, isWordCharacter character = true

/-- No word goes on in a text. -/
def Stops (text : List Char) : Prop :=
  ∀ next ∈ text.head?, isWordCharacter next = false

/-- An item stands in front of the rest of a text, with all of its word if it must be whole. -/
inductive Leads (whole : Prop) : Item → List Char → List Char → Prop where
  | word (opener : String) (known : opener ∈ openers) (stars : Nat) (word : IsWord name)
      (closing : Nat) (ends : whole → closing = 0 → Stops rest) :
      Leads whole (.word (opener.toList.head? = some '[') stars name) rest
        (opener.toList ++
          (List.replicate stars '*' ++ (name ++ (List.replicate closing ']' ++ rest))))
  | slash (separator : String) (known : separator ∈ [",", ", "]) (closing : Nat) :
      Leads whole .slash rest (separator.toList ++ '/' :: (List.replicate closing ']' ++ rest))

/-- A text that consists of items, with whole words if they must be whole. -/
inductive Spells (whole : Prop) : List Item → List Char → Prop where
  | nil : Spells whole [] []
  | cons (leads : Leads whole item rest text) (others : Spells whole items rest) :
      Spells whole (item :: items) text

variable {name body text rest : List Char} {item : Item} {whole : Prop} {items : List Item}

/-! ## Reading one item -/

theorem isWordCharacter_of_sign :
    ∀ sign ∈ ['*', '[', ',', ' ', ']', '/'], isWordCharacter sign = false := by
  simp only [List.forall_mem_cons]
  exact ⟨rfl, rfl, rfl, rfl, rfl, rfl, List.forall_mem_nil _⟩

theorem IsWord.exists_head (word : IsWord name) :
    ∃ first more, name = first :: more ∧ first ∉ ['*', '[', ',', ' ', ']', '/'] := by
  obtain ⟨first, more, rfl⟩ := List.exists_cons_of_ne_nil word.1
  refine ⟨first, more, rfl, fun isSign => ?_⟩
  simpa [isWordCharacter_of_sign first isSign] using word.2 first (by simp)

/-- A word is read as far as it goes. -/
theorem readWord?_append (word : IsWord name) (tail : List Char) (stars : Nat) (opens : Bool) :
    readWord? opens (List.replicate stars '*' ++ (name ++ tail)) =
      some (.word opens stars (name ++ tail.takeWhile isWordCharacter),
        tail.dropWhile isWordCharacter) := by
  have plain : (name ++ tail).takeWhile (· == '*') = [] ∧
      (name ++ tail).dropWhile (· == '*') = name ++ tail := by
    obtain ⟨first, more, rfl, noSign⟩ := word.exists_head
    simp_all
  rw [readWord?, List.takeWhile_append_of_pos (by simp), List.dropWhile_append_of_pos (by simp),
    plain.1, plain.2, List.takeWhile_append_of_pos word.2, List.dropWhile_append_of_pos word.2]
  simp [word.1]

theorem readOpenItem?_append
    (known : opener ∈ openers) (word : IsWord name) (stars : Nat) (tail : List Char) :
    readOpenItem? (opener.toList ++ (List.replicate stars '*' ++ (name ++ tail))) =
      some (.word (opener.toList.head? = some '[') stars (name ++ tail.takeWhile isWordCharacter),
        tail.dropWhile isWordCharacter) := by
  have reads := readWord?_append word tail stars
  obtain ⟨first, more, starts, plain⟩ : ∃ first more,
      List.replicate stars '*' ++ (name ++ tail) = first :: more ∧
        first ≠ '[' ∧ first ≠ ',' ∧ first ≠ ' ' := by
    cases stars with
    | zero =>
      obtain ⟨first, more, rfl, noSign⟩ := word.exists_head
      exact ⟨first, more ++ tail, rfl, by simp_all⟩
    | succ stars => exact ⟨'*', _, rfl, by decide⟩
  rw [starts] at reads ⊢
  simp only [openers, List.mem_cons, List.not_mem_nil, or_false] at known
  rcases known with rfl | rfl | rfl | rfl | rfl | rfl | rfl <;>
    simp [readOpenItem?, skipSeparator, skipBlank, plain, reads]

/-- Where an item starts, one is read, though its word may go on. -/
theorem Leads.readItem? (leads : Leads whole item rest text) :
    ∃ longer remaining, readItem? text = some (longer, skipClosing remaining) ∧
      (whole → longer = item ∧ remaining = rest) := by
  have skip (closing : Nat) : skipClosing (List.replicate closing ']' ++ rest) = skipClosing rest :=
    List.dropWhile_append_of_pos (by simp)
  cases leads with
  | slash separator known closing =>
    refine ⟨.slash, rest, ?_, fun _ => ⟨rfl, rfl⟩⟩
    simp only [List.mem_cons, List.not_mem_nil, or_false] at known
    rcases known with rfl | rfl <;>
      simp [Clinic.readItem?, readOpenItem?, skipBlank, readWord?, isWordCharacter_of_sign,
        readSlash?, skip]
  | word opener known stars word closing ends =>
    simp only [Clinic.readItem?, readOpenItem?_append known word, Option.map_some]
    cases closing with
    | succ closing =>
      refine ⟨_, rest, ?_, fun _ => ⟨rfl, rfl⟩⟩
      rw [← skip (closing + 1)]
      simp [List.replicate_succ, isWordCharacter_of_sign]
    | zero =>
      refine ⟨_, _, rfl, fun isWhole => ?_⟩
      have stops := ends isWhole rfl
      cases rest <;> simp_all [Stops]

theorem takeWhile_eq_replicate (sign : Char) (text : List Char) :
    text.takeWhile (· == sign) = List.replicate (text.takeWhile (· == sign)).length sign :=
  List.eq_replicate_of_mem fun _ member => by simpa using List.mem_takeWhile_imp member

theorem exists_closing (text : List Char) : ∃ closing,
    List.replicate closing ']' ++ skipClosing text = text ∧
      (closing = 0 → skipClosing text = text) := by
  refine ⟨(text.takeWhile (· == ']')).length, ?_, fun none => ?_⟩
  · rw [← takeWhile_eq_replicate, skipClosing, List.takeWhile_append_dropWhile]
  · rw [skipClosing, ← List.nil_append (text.dropWhile _), ← List.eq_nil_of_length_eq_zero none,
      List.takeWhile_append_dropWhile]

/-- A word that is read is whole. -/
theorem leads_of_readWord? (opener : String) (known : opener ∈ openers)
    (read : readWord? (opener.toList.head? = some '[') body = some (item, rest)) :
    Leads True item (skipClosing rest) (opener.toList ++ body) := by
  unfold readWord? at read
  dsimp only at read
  split at read
  · cases read
  · rename_i nonempty
    cases read
    obtain ⟨closing, closed, bare⟩ :=
      exists_closing ((body.dropWhile (· == '*')).dropWhile isWordCharacter)
    have leads := Leads.word opener known (body.takeWhile (· == '*')).length
      ⟨nonempty, fun _ => List.mem_takeWhile_imp⟩ closing fun (_ : True) none next isNext => by
        have stopped := List.head?_dropWhile_not isWordCharacter (body.dropWhile (· == '*'))
        rwa [← bare none, Option.mem_def.mp isNext] at stopped
    rwa [closed, List.takeWhile_append_dropWhile, ← takeWhile_eq_replicate,
      List.takeWhile_append_dropWhile] at leads

theorem leads_of_comma (separator : String) (known : separator ∈ [",", ", "])
    (read : (readWord? false body).or (readSlash? body) = some (item, rest)) :
    Leads True item (skipClosing rest) (separator.toList ++ body) := by
  rcases Option.or_eq_some_iff.mp read with word | ⟨-, slash⟩
  · simp only [List.mem_cons, List.not_mem_nil, or_false] at known
    rcases known with rfl | rfl <;> exact leads_of_readWord? _ (by simp [openers]) word
  · unfold readSlash? at slash
    split at slash <;> cases slash
    obtain ⟨closing, closed, -⟩ := exists_closing rest
    have leads : Leads True .slash (skipClosing rest) _ := .slash separator known closing
    rwa [closed] at leads

/-- What is read is an item, with all of its word. -/
theorem leads_of_readItem? (read : readItem? text = some (item, rest)) :
    Leads True item rest text := by
  obtain ⟨⟨found, remaining⟩, readOpen, ⟨⟩⟩ := Option.map_eq_some_iff.mp read
  unfold readOpenItem? at readOpen
  split at readOpen
  · unfold skipSeparator skipBlank at readOpen
    split at readOpen <;> split at readOpen
    · exact leads_of_readWord? "[, " (by simp [openers]) readOpen
    · exact leads_of_readWord? "[," (by simp [openers]) readOpen
    · exact leads_of_readWord? "[ " (by simp [openers]) readOpen
    · exact leads_of_readWord? "[" (by simp [openers]) readOpen
  · unfold skipBlank at readOpen
    split at readOpen
    · exact leads_of_comma ", " (by simp) readOpen
    · exact leads_of_comma "," (by simp) readOpen
  · exact leads_of_readWord? "" (by simp [openers]) readOpen

/-! ## Reading all items -/

/-- An item starts with a sign, or with a word that is all there is of it. -/
theorem Leads.start (leads : Leads whole item rest text) :
    (∃ sign more, text = sign :: more ∧ sign ∈ ['*', '[', ',']) ∨
      ∃ name closing, IsWord name ∧ (whole → closing = 0 → Stops rest) ∧
        text = name ++ (List.replicate closing ']' ++ rest) := by
  cases leads with
  | slash separator known closing =>
    simp only [List.mem_cons, List.not_mem_nil, or_false] at known
    rcases known with rfl | rfl <;> exact .inl ⟨',', _, rfl, by decide⟩
  | word opener known stars word closing ends =>
    simp only [openers, List.mem_cons, List.not_mem_nil, or_false] at known
    rcases known with rfl | rfl | rfl | rfl | rfl | rfl | rfl
    · cases stars with
      | zero => exact .inr ⟨_, closing, word, ends, rfl⟩
      | succ stars => exact .inl ⟨'*', _, rfl, by decide⟩
    all_goals exact .inl ⟨_, _, rfl, by decide⟩

theorem Leads.suffix (leads : Leads whole item rest text) : rest <:+ text := by
  cases leads <;> simp only [← List.append_assoc, ← List.cons_append] <;>
    exact List.suffix_append _ _

theorem Leads.length_lt (leads : Leads whole item rest text) : rest.length < text.length := by
  cases leads with
  | slash => simp; omega
  | word _ _ _ word =>
    have := List.length_pos_of_ne_nil word.1
    simp
    omega

theorem Spells.skipClosing_eq (spells : Spells whole items text) : skipClosing text = text := by
  cases spells with
  | nil => rfl
  | cons leads _ =>
    obtain ⟨_, _, read, -⟩ := leads.readItem?
    cases text with
    | nil => rfl
    | cons first more =>
      have noBracket : first ≠ ']' := by
        rintro rfl
        simp [Clinic.readItem?, readOpenItem?, readWord?, isWordCharacter_of_sign] at read
      simp [skipClosing, noBracket]

/-- Items whose words are whole are read as they are. -/
theorem Spells.readItems (spells : Spells True items text) (fits : text.length ≤ bound) :
    readItems bound text = .ok items := by
  induction spells generalizing bound with
  | nil => cases bound <;> rfl
  | @cons item rest text items leads others ih =>
    have shorter := leads.length_lt
    obtain ⟨_, _, read, same⟩ := leads.readItem?
    obtain ⟨rfl, rfl⟩ := same trivial
    rw [others.skipClosing_eq] at read
    obtain ⟨bound, rfl⟩ : ∃ less, bound = less + 1 := ⟨bound - 1, by omega⟩
    obtain ⟨first, more, rfl⟩ := List.exists_cons_of_length_pos (Nat.zero_lt_of_lt shorter)
    simp only [Clinic.readItems, read, ih (by omega : _ ≤ bound)]
    rfl

theorem Spells.weaken (spells : Spells True items text) : Spells False items text := by
  induction spells with
  | nil => exact .nil
  | cons leads _ ih =>
    refine .cons ?_ ih
    cases leads with
    | slash separator known closing => exact .slash separator known closing
    | word opener known stars word closing =>
      exact .word opener known stars word closing False.elim

/-- Words that were cut can be joined. -/
theorem Spells.join (spells : Spells whole items text) : ∃ joined, Spells True joined text := by
  induction spells with
  | nil => exact ⟨[], .nil⟩
  | @cons item rest text items leads _ ih =>
    obtain ⟨joined, others⟩ := ih
    cases leads with
    | slash separator known closing => exact ⟨_, .cons (.slash separator known closing) others⟩
    | word opener known stars word closing =>
      by_cases ends : closing = 0 → Stops rest
      · exact ⟨_, .cons (.word opener known stars word closing fun _ => ends) others⟩
      · -- the rest goes on with the same word, so its first item has no sign in front of it
        simp only [Stops] at ends
        push Not at ends
        obtain ⟨rfl, next, isNext, isWord⟩ := ends
        cases others with
        | nil => cases isNext
        | cons nextLeads others =>
          rcases nextLeads.start with ⟨sign, more, rfl, isSign⟩ | ⟨more, closing, goes, ends, rfl⟩
          · cases isNext
            exact absurd (isWordCharacter_of_sign next (by simp at isSign ⊢; tauto)) isWord
          · have joined : IsWord (_ ++ more) :=
              ⟨List.append_ne_nil_of_right_ne_nil _ goes.1,
                List.forall_mem_append.mpr ⟨word.2, goes.2⟩⟩
            have joins := Leads.word opener known stars joined closing ends
            exact ⟨_, .cons (by simpa using joins) others⟩

/-- What is read consists of items, and reading fails where no item starts. -/
theorem readItems_cases (fits : text.length ≤ bound) :
    match readItems bound text with
    | .ok items => Spells True items text
    | .error issue => ∃ rest, issue = .unsupported (String.ofList rest) ∧ rest ≠ [] ∧
        rest <:+ text ∧ ∀ item others, ¬Leads False item others rest := by
  fun_induction readItems bound text with
  | case1 => exact .nil
  | case2 rest nonempty =>
    exact absurd (List.eq_nil_of_length_eq_zero (Nat.le_zero.mp fits)) nonempty
  | case3 bound text nonempty unread =>
    refine ⟨text, rfl, nonempty, List.suffix_rfl, fun item others leads => ?_⟩
    obtain ⟨_, _, read, -⟩ := leads.readItem?
    simp [unread] at read
  | case4 bound text nonempty item rest read ih =>
    have leads := leads_of_readItem? read
    have shorter := leads.length_lt
    specialize ih (by omega)
    cases result : readItems bound rest with
    | ok items =>
      rw [result] at ih
      exact .cons leads ih
    | error issue =>
      rw [result] at ih
      obtain ⟨last, isLast, someText, suffix, noItem⟩ := ih
      exact ⟨last, isLast, someText, suffix.trans leads.suffix, noItem⟩

/-! ## Parameters -/

def Item.opens : Item → Bool
  | .word opens _ _ => opens
  | .slash => false

/-- Whether words behind an item may be given by keyword. -/
def Item.unlocks : Item → Bool
  | .word _ stars _ => stars != 0
  | .slash => true

/-- The parameter of an item behind other items. -/
def Item.parameter? (before : List Item) : Item → Option Parameter
  | .word opens stars name =>
    some ⟨String.ofList name, before.any Item.opens || opens, before.any Item.unlocks, stars⟩
  | .slash => none

/-- The parameters of items, each behind those that stand before it. -/
def describe (items : List Item) : List Parameter :=
  (items.mapIdx fun position item => item.parameter? (items.take position)).reduceOption

theorem parametersFrom_eq (before items : List Item) :
    parametersFrom (before.any Item.opens) (before.any Item.unlocks) items =
      (items.mapIdx fun position item =>
        item.parameter? (before ++ items.take position)).reduceOption := by
  induction items generalizing before with
  | nil => rfl
  | cons item rest ih =>
    have step := ih (before ++ [item])
    cases item <;>
      simpa [parametersFrom, List.mapIdx_cons, Item.parameter?, List.reduceOption_cons_of_some,
        List.reduceOption_cons_of_none, Item.opens, Item.unlocks] using step

theorem parametersFrom_words (opens optional keyword : Bool) (names : List (List Char)) :
    parametersFrom optional keyword (names.map (.word opens 0) ++ items) =
      names.map (fun name => ⟨String.ofList name, optional || opens, keyword, 0⟩) ++
        parametersFrom (optional || opens && !names.isEmpty) keyword items := by
  induction names generalizing optional with
  | nil => simp
  | cons name more ih => cases opens <;> simp [parametersFrom, ih]

/-! ## Writing parameters -/

/-- Words one after another, with separators in front of them. -/
def listed (separator : String) (names : List (List Char)) : List Char :=
  names.flatMap (separator.toList ++ ·)

/--
A list of parameters as it is written: the required ones behind commas but for the first,
the optional ones in brackets that close at the end, and a slash.
-/
def render (required optional : List (List Char)) (slash : Bool) : List Char :=
  (listed ", " required).drop 2 ++ (listed "[, " optional ++
    (List.replicate optional.length ']' ++ if slash then ", /".toList else []))

section Listed

variable (separator : String) (known : separator ∈ [", ", "[, "]) (names : List (List Char))
  (closing : Nat) (stops : Stops rest)

include known stops

theorem stops_listed : Stops (listed separator names ++ (List.replicate closing ']' ++ rest)) := by
  simp only [List.mem_cons, List.not_mem_nil, or_false] at known
  cases names with
  | cons name more => rcases known with rfl | rfl <;> simp [Stops, listed, isWordCharacter_of_sign]
  | nil => cases closing <;> simp_all [Stops, listed, List.replicate_succ, isWordCharacter_of_sign]

theorem spells_listed (words : ∀ name ∈ names, IsWord name)
    (closes : names = [] → closing = 0) (others : Spells True items rest) :
    Spells True (names.map (.word (separator.toList.head? = some '[') 0) ++ items)
      (listed separator names ++ (List.replicate closing ']' ++ rest)) := by
  have opener : separator ∈ openers := by
    simp only [List.mem_cons, List.not_mem_nil, or_false] at known
    rcases known with rfl | rfl <;> simp [openers]
  induction names with
  | nil => simpa [listed, closes rfl] using others
  | cons name more ih =>
    obtain ⟨word, moreWords⟩ := List.forall_mem_cons.mp words
    cases more with
    | nil =>
      have leads := Leads.word separator opener 0 word closing fun (_ : True) _ => stops
      simpa [listed] using Spells.cons leads others
    | cons second more =>
      have leads := Leads.word separator opener 0 word 0 fun (_ : True) _ =>
        stops_listed separator known (second :: more) closing stops
      simpa [listed] using Spells.cons leads (ih moreWords (by simp))

end Listed

theorem spells_render (required optional : List (List Char)) (slash : Bool)
    (words : ∀ name ∈ required ++ optional, IsWord name) :
    Spells True (required.map (.word false 0) ++ (optional.map (.word true 0) ++
      if slash then [.slash] else [])) (render required optional slash) := by
  obtain ⟨requiredWords, optionalWords⟩ := List.forall_mem_append.mp words
  have stops : Stops (if slash then ", /".toList else []) := by
    cases slash <;> simp [Stops, isWordCharacter_of_sign]
  have last : Spells True (if slash then [.slash] else [])
      (if slash then ", /".toList else []) := by
    cases slash
    · exact .nil
    · exact .cons (.slash ", " (by simp) 0) .nil
  have behind := spells_listed "[, " (by simp) optional optional.length stops optionalWords
    (by simp +contextual) last
  have stopsBehind := stops_listed "[, " (by simp) optional optional.length stops
  cases required with
  | nil => simpa [render, listed] using behind
  | cons name more =>
    obtain ⟨word, moreWords⟩ := List.forall_mem_cons.mp requiredWords
    have others := spells_listed ", " (by simp) more 0 stopsBehind moreWords (by simp) behind
    have leads := Leads.word "" (by simp [openers]) 0 word 0 fun (_ : True) _ =>
      stops_listed ", " (by simp) more 0 stopsBehind
    simpa [render, listed] using Spells.cons leads others

/-! ## Signatures -/

theorem parse_of_readItems {signature : String}
    (read : readItems signature.toList.length signature.toList = .ok items) :
    parse signature = .ok (parametersFrom false false items) := by
  rw [parse, read]
  rfl

/-- A signature has the parameters that its whole words describe. -/
theorem parse_eq_ok_iff (signature : String) (parameters : List Parameter) :
    parse signature = .ok parameters ↔
      ∃ items, Spells True items signature.toList ∧ parameters = describe items := by
  have described (items : List Item) : parametersFrom false false items = describe items := by
    simpa [describe] using parametersFrom_eq [] items
  constructor
  · intro parsed
    have outcome := readItems_cases (Nat.le_refl signature.toList.length)
    cases result : readItems signature.toList.length signature.toList with
    | ok items =>
      rw [result] at outcome
      cases (parse_of_readItems result).symm.trans parsed
      exact ⟨items, outcome, described items⟩
    | error issue => simp [parse, result, Except.map] at parsed
  · rintro ⟨items, spells, rfl⟩
    rw [parse_of_readItems (spells.readItems (Nat.le_refl _)), described]

/--
Signatures are accepted exactly if they consist of items, whole words describe the
parameters, and parameters can be read back as they are written.
-/
theorem parse_follows_grammar :
    (∀ signature,
      ((∃ parameters, parse signature = .ok parameters) ↔
        ∃ items, Spells False items signature.toList) ∧
      (∀ parameters, parse signature = .ok parameters ↔
        ∃ items, Spells True items signature.toList ∧ parameters = describe items) ∧
      ∀ issue, parse signature = .error issue → ∃ rest, issue = .unsupported (String.ofList rest) ∧
        rest ≠ [] ∧ rest <:+ signature.toList ∧ ∀ item others, ¬Leads False item others rest) ∧
    ∀ required optional slash, (∀ name ∈ required ++ optional, IsWord name) →
      parse (String.ofList (render required optional slash)) =
        .ok (required.map (fun name => ⟨String.ofList name, false, false, 0⟩) ++
          optional.map fun name => ⟨String.ofList name, true, false, 0⟩) := by
  refine ⟨fun signature => ⟨⟨?_, ?_⟩, parse_eq_ok_iff signature, fun issue failed => ?_⟩,
    fun required optional slash words => ?_⟩
  · rintro ⟨parameters, parsed⟩
    obtain ⟨items, spells, -⟩ := (parse_eq_ok_iff signature parameters).mp parsed
    exact ⟨items, spells.weaken⟩
  · rintro ⟨items, spells⟩
    obtain ⟨joined, spells⟩ := spells.join
    exact ⟨_, (parse_eq_ok_iff signature _).mpr ⟨joined, spells, rfl⟩⟩
  · have outcome := readItems_cases (Nat.le_refl signature.toList.length)
    cases result : readItems signature.toList.length signature.toList with
    | ok items => simp [parse_of_readItems result] at failed
    | error other =>
      rw [result] at outcome
      simp only [parse, result, Except.map, Except.error.injEq] at failed
      exact failed ▸ outcome
  · have spells := spells_render required optional slash words
    rw [← String.toList_ofList (l := render required optional slash)] at spells
    rw [parse_of_readItems (spells.readItems (Nat.le_refl _)), parametersFrom_words,
      parametersFrom_words]
    cases slash <;> simp [parametersFrom]

end Clinic

end TypeInference
