import DotMatrix.CommandLine.Options
import DotMatrix.Proofs.Checks

/-! The items of a command line. Arguments are taken from left to right: the flag, an option with
the argument behind it, or the path of the image. The parser takes one item after the other. -/
namespace DotMatrix

namespace Options

/-- What stands on a command line. -/
inductive Item where
  | colorize
  | valued (option : Valued) (value : String)
  | image (path : String)
  deriving DecidableEq

def Valued.name : Valued → String
  | .frames => "--frames"
  | .dump => "--dump"
  | .saveTo => "--save-state"
  | .loadFrom => "--load-state"
  | .battery => "--battery"

theorem Valued.ofArgument?_eq_some {argument : String} {option : Valued} :
    ofArgument? argument = some option ↔ argument = option.name := by
  constructor
  · intro known
    unfold ofArgument? at known
    split at known <;> cases known <;> rfl
  · rintro rfl
    cases option <;> rfl

namespace Item

def written : Item → List String
  | .colorize => ["--colorize"]
  | .valued option value => [option.name, value]
  | .image path => [path]

theorem written_length_pos (item : Item) : 0 < item.written.length := by
  cases item <;> exact Nat.succ_pos _

/-- A path does not look like an option. A value may. -/
def Shaped : Item → Prop
  | .image path => ¬"--".toList <+: path.toList
  | _ => True

instance : DecidablePred Shaped
  | .image _ => inferInstanceAs (Decidable (¬_))
  | .colorize => isTrue trivial
  | .valued _ _ => isTrue trivial

/-- The first item of a list of arguments, and the arguments behind it. -/
def next? : List String → Option (Item × List String)
  | [] => none
  | argument :: rest =>
    match Valued.ofArgument? argument, rest with
    | some _, [] => none
    | some option, value :: rest => some (.valued option value, rest)
    | none, rest =>
      if argument = "--colorize" then some (.colorize, rest)
      else if argument.startsWith "--" then none
      else some (.image argument, rest)

theorem next?_name (option : Valued) : next? [option.name] = none := by
  cases option <;> rfl

theorem next?_valued (option : Valued) (value : String) (rest : List String) :
    next? (option.name :: value :: rest) = some (.valued option value, rest) := by
  cases option <;> rfl

theorem next?_single {argument : String} (single : Valued.ofArgument? argument = none)
    (rest : List String) :
    next? (argument :: rest) =
      if argument = "--colorize" then some (.colorize, rest)
      else if argument.startsWith "--" then none
      else some (.image argument, rest) := by
  simp only [next?, single]

theorem ofArgument?_of_shaped {path : String} (shaped : (image path).Shaped) :
    Valued.ofArgument? path = none := by
  rw [Option.eq_none_iff_forall_ne_some]
  intro option known
  apply shaped
  rw [Valued.ofArgument?_eq_some.mp known]
  cases option <;> decide

theorem ne_colorize_of_shaped {path : String} (shaped : (image path).Shaped) :
    path ≠ "--colorize" := by
  rintro rfl
  exact shaped (by decide)

theorem next?_eq_some {arguments rest : List String} {item : Item} :
    next? arguments = some (item, rest) ↔ item.Shaped ∧ arguments = item.written ++ rest := by
  constructor
  · intro found
    cases arguments with
    | nil => cases found
    | cons argument behind =>
      cases known : Valued.ofArgument? argument with
      | some option =>
        rw [Valued.ofArgument?_eq_some] at known
        subst known
        cases behind with
        | nil =>
          rw [next?_name] at found
          cases found
        | cons value behind =>
          rw [next?_valued] at found
          cases found
          exact ⟨trivial, rfl⟩
      | none =>
        rw [next?_single known] at found
        split at found
        · next flag =>
          cases found
          exact ⟨trivial, congrArg (· :: rest) flag⟩
        · split at found
          · cases found
          · next plain =>
            cases found
            exact ⟨mt String.startsWith_string_iff.mpr plain, rfl⟩
  · rintro ⟨shaped, rfl⟩
    cases item with
    | colorize => rfl
    | valued option value => exact next?_valued option value rest
    | image path =>
      rw [written, List.singleton_append, next?_single (ofArgument?_of_shaped shaped),
        if_neg (ne_colorize_of_shaped shaped), if_neg (mt String.startsWith_string_iff.mp shaped)]

theorem next?_flatMap {item : Item} (shaped : item.Shaped) (items : List Item) :
    next? ((item :: items).flatMap written) = some (item, items.flatMap written) :=
  next?_eq_some.mpr ⟨shaped, List.flatMap_cons⟩

/-- Arguments are taken apart into items in one way at most. -/
theorem eq_of_flatMap_written {items items' : List Item} (shaped : ∀ item ∈ items, item.Shaped)
    (shaped' : ∀ item ∈ items', item.Shaped)
    (same : items.flatMap written = items'.flatMap written) : items = items' := by
  induction items generalizing items' with
  | nil =>
    cases items' with
    | nil => rfl
    | cons item' items' =>
      have found := next?_flatMap (shaped' item' List.mem_cons_self) items'
      rw [← same] at found
      cases found
  | cons item items ih =>
    have found := next?_flatMap (shaped item List.mem_cons_self) items
    cases items' with
    | nil =>
      rw [same] at found
      cases found
    | cons item' items' =>
      rw [same, next?_flatMap (shaped' item' List.mem_cons_self)] at found
      obtain ⟨rfl, behind⟩ := Prod.ext_iff.mp (Option.some.inj found)
      rw [ih (fun item listed => shaped item (List.mem_cons_of_mem _ listed))
        (fun item listed => shaped' item (List.mem_cons_of_mem _ listed)) behind.symm]

end Item

def Draft.add (d : Draft) : Item → Except UsageError Draft
  | .colorize => .ok { d with options := { d.options with colorize := true } }
  | .valued option value => d.setValue value option
  | .image path =>
    if d.image.isSome then .error .secondImage else .ok { d with image := some path }

theorem parseFrom_name (d : Draft) (option : Valued) :
    parseFrom d [option.name] = .error (.missingValue option.name) := by
  cases option <;> rfl

theorem parseFrom_valued (d : Draft) (option : Valued) (value : String) (rest : List String) :
    parseFrom d (option.name :: value :: rest) =
      (d.setValue value option).bind fun d => parseFrom d rest := by
  have known : Valued.ofArgument? option.name = some option := Valued.ofArgument?_eq_some.mpr rfl
  rw [parseFrom.eq_def d]
  simp only [known]
  cases d.setValue value option <;> rfl

theorem parseFrom_single {argument : String} (single : Valued.ofArgument? argument = none)
    (d : Draft) (rest : List String) :
    parseFrom d (argument :: rest) = (d.take argument).bind fun d => parseFrom d rest := by
  rw [parseFrom.eq_def d]
  simp only [single]
  cases d.take argument <;> rfl

theorem parseFrom_of_next {arguments rest : List String} {item : Item}
    (found : Item.next? arguments = some (item, rest)) (d : Draft) :
    parseFrom d arguments = (d.add item).bind fun d => parseFrom d rest := by
  obtain ⟨shaped, rfl⟩ := Item.next?_eq_some.mp found
  cases item with
  | colorize => exact parseFrom_single rfl d rest
  | valued option value => exact parseFrom_valued d option value rest
  | image path =>
    have taken : d.take path = d.add (.image path) := by
      rw [Draft.take, if_neg (Item.ne_colorize_of_shaped shaped),
        if_neg (mt String.startsWith_string_iff.mp shaped), Draft.add]
    rw [← taken]
    exact parseFrom_single (Item.ofArgument?_of_shaped shaped) d rest

theorem parseFrom_of_none {argument : String} {rest : List String}
    (none : Item.next? (argument :: rest) = none) (d : Draft) :
    ∃ e, parseFrom d (argument :: rest) = .error e := by
  cases known : Valued.ofArgument? argument with
  | some option =>
    rw [Valued.ofArgument?_eq_some] at known
    subst known
    cases rest with
    | nil => exact ⟨_, parseFrom_name d option⟩
    | cons value rest =>
      rw [Item.next?_valued] at none
      cases none
  | none =>
    rw [Item.next?_single known] at none
    split at none
    · cases none
    · next other =>
      split at none
      · next dashes =>
        refine ⟨.unknownOption argument, ?_⟩
        rw [parseFrom_single known, Draft.take, if_neg other, if_pos dashes]
        rfl
      · cases none

theorem parseFrom_eq_ok {d : Draft} {arguments : List String} {options : Options} :
    parseFrom d arguments = .ok options ↔
      ∃ items : List Item, (∀ item ∈ items, item.Shaped) ∧
        arguments = items.flatMap Item.written ∧
        ∃ last, items.foldlM Draft.add d = .ok last ∧ last.finish = .ok options := by
  constructor
  · intro accepted
    induction size : arguments.length using Nat.strongRecOn generalizing d arguments with
    | ind size ih =>
      cases arguments with
      | nil => exact ⟨[], List.forall_mem_nil _, rfl, d, rfl, accepted⟩
      | cons argument behind =>
        cases found : Item.next? (argument :: behind) with
        | none =>
          obtain ⟨e, refused⟩ := parseFrom_of_none found d
          rw [refused] at accepted
          cases accepted
        | some first =>
          obtain ⟨item, rest⟩ := first
          obtain ⟨shaped, split⟩ := Item.next?_eq_some.mp found
          rw [parseFrom_of_next found] at accepted
          obtain ⟨d', added, accepted⟩ := Except.bind_eq_ok.mp accepted
          have shorter : rest.length < (argument :: behind).length := by
            rw [split, List.length_append]
            exact Nat.lt_add_of_pos_left item.written_length_pos
          obtain ⟨items, shaped', rfl, last, folded, finished⟩ :=
            ih _ (size ▸ shorter) accepted rfl
          exact ⟨item :: items, List.forall_mem_cons.mpr ⟨shaped, shaped'⟩, split, last,
            Except.foldlM_cons_eq_ok.mpr ⟨d', added, folded⟩, finished⟩
  · rintro ⟨items, shaped, rfl, last, folded, finished⟩
    induction items generalizing d with
    | nil =>
      cases folded
      exact finished
    | cons item items ih =>
      rw [List.forall_mem_cons] at shaped
      obtain ⟨d', added, folded⟩ := Except.foldlM_cons_eq_ok.mp folded
      rw [parseFrom_of_next (Item.next?_flatMap shaped.1 items), added]
      exact ih shaped.2 folded

end Options
end DotMatrix
