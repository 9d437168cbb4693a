import DotMatrix.Proofs.CommandLine.Items
import DotMatrix.Proofs.CommandLine.Numeral
import Mathlib.Data.List.Induction

/-! The grammar of the command line: which lists of arguments are accepted, and what they come
to. -/
namespace DotMatrix
namespace Options

def Item.value? (option : Valued) : Item → Option String
  | .valued given value => if given = option then some value else none
  | _ => none

def Item.path? : Item → Option String
  | .image path => some path
  | _ => none

def values (option : Valued) (items : List Item) : List String :=
  items.filterMap (Item.value? option)

def paths (items : List Item) : List String := items.filterMap Item.path?

theorem values_snoc (option : Valued) (items : List Item) (item : Item) :
    values option (items ++ [item]) = values option items ++ (item.value? option).toList := by
  rw [values, List.filterMap_append, values]
  cases h : item.value? option <;> simp [h]

theorem paths_snoc (items : List Item) (item : Item) :
    paths (items ++ [item]) = paths items ++ item.path?.toList := by
  rw [paths, List.filterMap_append, paths]
  cases h : item.path? <;> simp [h]

/-- The number of frames by the numerals that were given for it. -/
structure Counts (given : List String) (frames : Nat) : Prop where
  numerals : ∀ text ∈ given, ∃ n, Number.Denotes text n
  last : match given.getLast? with
    | some text => Number.Denotes text frames
    | none => frames = 60

theorem Counts.snoc {given : List String} {frames n : Nat} {text : String} (h : Counts given frames)
    (denotes : Number.Denotes text n) : Counts (given ++ [text]) n where
  numerals := List.forall_mem_append.mpr ⟨h.numerals, List.forall_mem_singleton.mpr ⟨n, denotes⟩⟩
  last := by
    rw [List.getLast?_concat]
    exact denotes

def text? (options : Options) : Valued → Option String
  | .frames => none
  | .dump => options.dump
  | .saveTo => options.saveTo
  | .loadFrom => options.loadFrom
  | .battery => options.battery

theorem ext_text? {options options' : Options} (image : options.image = options'.image)
    (frames : options.frames = options'.frames)
    (texts : ∀ option ≠ Valued.frames, options.text? option = options'.text? option)
    (colorize : options.colorize = options'.colorize) : options = options' := by
  cases options
  cases options'
  rw [mk.injEq]
  exact ⟨image, frames, texts .dump (by decide), texts .saveTo (by decide),
    texts .loadFrom (by decide), texts .battery (by decide), colorize⟩

theorem text?_colorize (options : Options) (colorize : Bool) (option : Valued) :
    { options with colorize }.text? option = options.text? option := by
  cases option <;> rfl

structure Draft.Sets (d : Draft) (option : Valued) (value : String) (d' : Draft) : Prop where
  image : d'.image = d.image
  blank : d'.options.image = d.options.image
  frames : if option = .frames then Number.Denotes value d'.options.frames
    else d'.options.frames = d.options.frames
  texts : ∀ other ≠ Valued.frames, d'.options.text? other =
    if option = other then some value else d.options.text? other
  colorize : d'.options.colorize = d.options.colorize

theorem Draft.sets_of_setValue {d d' : Draft} {option : Valued} {value : String}
    (set : d.setValue value option = .ok d') : d.Sets option value d' := by
  cases option with
  | frames =>
    simp only [setValue] at set
    split at set
    · next read =>
      cases set
      exact ⟨rfl, rfl, Number.read32_eq_ok.mp read, by rintro (_ | _ | _ | _ | _) _ <;> trivial,
        rfl⟩
    · cases set
  | dump | saveTo | loadFrom | battery =>
    cases set
    exact ⟨rfl, rfl, rfl, by rintro (_ | _ | _ | _ | _) _ <;> trivial, rfl⟩

structure Leaves (items : List Item) (d : Draft) : Prop where
  image : paths items = d.image.toList
  blank : d.options.image = ""
  frames : Counts (values .frames items) d.options.frames
  texts : ∀ option ≠ Valued.frames, d.options.text? option = (values option items).getLast?
  colorize : d.options.colorize = true ↔ .colorize ∈ items

theorem leaves_start : Leaves [] .start where
  image := rfl
  blank := rfl
  frames := ⟨List.forall_mem_nil _, rfl⟩
  texts := by rintro (_ | _ | _ | _ | _) _ <;> rfl
  colorize := by simp [Draft.start]

theorem Leaves.add {items : List Item} {item : Item} {d d' : Draft} (h : Leaves items d)
    (added : d.add item = .ok d') : Leaves (items ++ [item]) d' := by
  cases item with
  | colorize =>
    cases added
    exact
      { image := by simpa [paths_snoc, Item.path?] using h.image
        blank := h.blank
        frames := by simpa [values_snoc, Item.value?] using h.frames
        texts := fun option other => by
          rw [values_snoc, text?_colorize]
          simpa [Item.value?] using h.texts option other
        colorize := by simp }
  | valued option value =>
    have sets := Draft.sets_of_setValue added
    exact
      { image := by simpa [paths_snoc, Item.path?, sets.image] using h.image
        blank := sets.blank.trans h.blank
        frames := by
          have frames := sets.frames
          rw [values_snoc, Item.value?]
          split at frames
          · next same =>
            rw [if_pos same]
            exact h.frames.snoc frames
          · next other =>
            rw [if_neg other, frames]
            simpa using h.frames
        texts := fun other named => by
          rw [sets.texts other named, values_snoc, Item.value?]
          split
          · exact List.getLast?_concat.symm
          · simpa using h.texts other named
        colorize := by simpa [sets.colorize] using h.colorize }
  | image path =>
    simp only [Draft.add] at added
    split at added
    · cases added
    · next first =>
      cases added
      exact
        { image := by
            have none : d.image = none := by simpa using first
            simp [paths_snoc, Item.path?, h.image, none]
          blank := h.blank
          frames := by simpa [values_snoc, Item.value?] using h.frames
          texts := fun option other => by
            rw [values_snoc]
            simpa [Item.value?] using h.texts option other
          colorize := by simpa using h.colorize }

theorem Leaves.exists_add {items : List Item} {item : Item} {d : Draft} (h : Leaves items d)
    (image : (paths (items ++ [item])).length ≤ 1)
    (frames : ∀ text ∈ values .frames (items ++ [item]), ∃ n, Number.Denotes text n) :
    ∃ d', d.add item = .ok d' := by
  cases item with
  | colorize => exact ⟨_, rfl⟩
  | valued option value =>
    cases option with
    | frames =>
      obtain ⟨n, denotes⟩ := frames value (by simp [values_snoc, Item.value?])
      rw [← Number.read32_eq_ok] at denotes
      exact ⟨_, by rw [Draft.add, Draft.setValue, denotes]⟩
    | dump | saveTo | loadFrom | battery => exact ⟨_, rfl⟩
  | image path =>
    have none : d.image.isSome = false := by
      rw [paths_snoc, h.image] at image
      cases given : d.image with
      | none => rfl
      | some other => simp [given, Item.path?] at image
    exact ⟨_, by rw [Draft.add, none]; rfl⟩

theorem leaves_of_foldlM {items : List Item} {d : Draft}
    (folded : items.foldlM Draft.add .start = .ok d) : Leaves items d := by
  induction items using List.reverseRecOn generalizing d with
  | nil =>
    cases folded
    exact leaves_start
  | append_singleton items item ih =>
    obtain ⟨d', before, added⟩ := Except.foldlM_snoc_eq_ok.mp folded
    exact (ih before).add added

theorem exists_foldlM {items : List Item} (image : (paths items).length ≤ 1)
    (frames : ∀ text ∈ values .frames items, ∃ n, Number.Denotes text n) :
    ∃ d, items.foldlM Draft.add .start = .ok d := by
  induction items using List.reverseRecOn with
  | nil => exact ⟨_, rfl⟩
  | append_singleton items item ih =>
    obtain ⟨d, folded⟩ := ih
      (by rw [paths_snoc, List.length_append] at image; omega)
      (fun text given => frames text (by rw [values_snoc]; exact List.mem_append_left _ given))
    obtain ⟨d', added⟩ := (leaves_of_foldlM folded).exists_add image frames
    exact ⟨d', Except.foldlM_snoc_eq_ok.mpr ⟨d, folded, added⟩⟩

/-- A list of arguments is written with these items, and they are what the grammar asks for. -/
structure Fits (arguments : List String) (items : List Item) : Prop where
  shaped : ∀ item ∈ items, item.Shaped
  written : arguments = items.flatMap Item.written
  image : ∃ path, paths items = [path]
  frames : ∀ text ∈ values .frames items, ∃ n, Number.Denotes text n

/-- What items come to: the path, the last value of each option, and whether the flag is there. -/
structure Means (items : List Item) (options : Options) : Prop where
  image : paths items = [options.image]
  frames : match (values .frames items).getLast? with
    | some text => Number.Denotes text options.frames
    | none => options.frames = 60
  texts : ∀ option ≠ Valued.frames, options.text? option = (values option items).getLast?
  colorize : options.colorize = true ↔ .colorize ∈ items

theorem Leaves.means {items : List Item} {d : Draft} {options : Options} (h : Leaves items d)
    (finished : d.finish = .ok options) : Means items options := by
  unfold Draft.finish at finished
  split at finished
  · next image given =>
    cases finished
    exact
      { image := by rw [h.image, given]; rfl
        frames := h.frames.last
        texts := fun option other => by
          rw [← h.texts option other]
          cases option <;> rfl
        colorize := h.colorize }
  · cases finished

theorem Means.unique {items : List Item} {options options' : Options} (h : Means items options)
    (h' : Means items options') : options = options' := by
  have image : options.image = options'.image := by
    have both := h.image.symm.trans h'.image
    exact (List.cons.inj both).1
  have frames : options.frames = options'.frames := by
    have frames := h.frames
    have frames' := h'.frames
    split at frames
    · next text last =>
      rw [last] at frames'
      exact Number.denotes_unique frames frames'
    · next last =>
      rw [last] at frames'
      exact frames.trans frames'.symm
  have texts (option : Valued) (other : option ≠ .frames) :
      options.text? option = options'.text? option :=
    (h.texts option other).trans (h'.texts option other).symm
  have colorize : options.colorize = options'.colorize :=
    Bool.eq_iff_iff.mpr (h.colorize.trans h'.colorize.symm)
  exact ext_text? image frames texts colorize

theorem fits_of_parse {arguments : List String} {options : Options}
    (accepted : parse arguments = .ok options) :
    ∃ items, Fits arguments items ∧ Means items options := by
  obtain ⟨items, shaped, written, last, folded, finished⟩ := parseFrom_eq_ok.mp accepted
  have left := leaves_of_foldlM folded
  have means := left.means finished
  exact ⟨items, ⟨shaped, written, ⟨_, means.image⟩, left.frames.numerals⟩, means⟩

theorem Fits.parse {arguments : List String} {items : List Item} (h : Fits arguments items) :
    ∃ options, parse arguments = .ok options ∧ Means items options := by
  obtain ⟨path, image⟩ := h.image
  obtain ⟨last, folded⟩ := exists_foldlM (Nat.le_of_eq (congrArg List.length image)) h.frames
  have left := leaves_of_foldlM folded
  have given : last.image = some path :=
    Option.toList_eq_singleton_iff.mp (left.image.symm.trans image)
  have finished : last.finish = .ok { last.options with image := path } := by
    rw [Draft.finish, given]
  exact ⟨_, parseFrom_eq_ok.mpr ⟨items, h.shaped, h.written, last, folded, finished⟩,
    left.means finished⟩

theorem Fits.parse_eq {arguments : List String} {items : List Item} {options : Options}
    (h : Fits arguments items) (means : Means items options) :
    Options.parse arguments = .ok options := by
  obtain ⟨options', accepted, means'⟩ := h.parse
  rw [accepted, means'.unique means]

/-- What can be asked for on a command line. -/
inductive Kind where
  | colorize
  | valued (option : Valued)
  | image
  deriving DecidableEq

def Item.kind : Item → Kind
  | .colorize => .colorize
  | .valued option _ => .valued option
  | .image _ => .image

/-- Two lists of items have the same items of each kind in the same order. -/
def SameKinds (items items' : List Item) : Prop :=
  ∀ kind : Kind, items.filter (·.kind = kind) = items'.filter (·.kind = kind)

theorem filterMap_filter_kind {α : Type} {f : Item → Option α} {kind : Kind}
    (only : ∀ item : Item, item.kind ≠ kind → f item = none) (items : List Item) :
    (items.filter (·.kind = kind)).filterMap f = items.filterMap f := by
  rw [List.filterMap_filter]
  congr 1
  funext item
  split
  · rfl
  · next other => exact (only item (by simpa using other)).symm

section SameKinds
variable {items items' : List Item} (same : SameKinds items items')
include same

theorem SameKinds.values (option : Valued) : values option items = values option items' := by
  have only (item : Item) (other : item.kind ≠ .valued option) : item.value? option = none := by
    cases item with
    | valued given value => exact if_neg fun h => other (congrArg Kind.valued h)
    | colorize | image => rfl
  unfold Options.values
  rw [← filterMap_filter_kind only, same, filterMap_filter_kind only]

theorem SameKinds.paths : paths items = paths items' := by
  have only (item : Item) (other : item.kind ≠ .image) : item.path? = none := by
    cases item with
    | image => exact absurd rfl other
    | colorize | valued => rfl
  unfold Options.paths
  rw [← filterMap_filter_kind only, same, filterMap_filter_kind only]

theorem SameKinds.mem (item : Item) : item ∈ items ↔ item ∈ items' := by
  have kept (l : List Item) : item ∈ l ↔ item ∈ l.filter (·.kind = item.kind) := by
    simp [List.mem_filter]
  rw [kept items, kept items', same]

theorem SameKinds.means {options : Options} (h : Means items options) : Means items' options where
  image := same.paths ▸ h.image
  frames := same.values .frames ▸ h.frames
  texts option other := same.values option ▸ h.texts option other
  colorize := h.colorize.trans (same.mem .colorize)

theorem SameKinds.fits {arguments : List String} (h : Fits arguments items) :
    Fits (items'.flatMap Item.written) items' where
  shaped item listed := h.shaped item ((same.mem item).mpr listed)
  written := rfl
  image := same.paths ▸ h.image
  frames := same.values .frames ▸ h.frames

end SameKinds

def listed (options : Options) (count : Option String) : List Item :=
  [.image options.image] ++ count.toList.map (.valued .frames) ++
    [Valued.dump, .saveTo, .loadFrom, .battery].flatMap
      (fun option => (options.text? option).toList.map (.valued option)) ++
    if options.colorize then [.colorize] else []

/-- The items are a way to write the options, in any order. -/
structure Writes (options : Options) (items : List Item) : Prop where
  shaped : (Item.image options.image).Shaped
  order : ∃ count : Option String, items.Perm (options.listed count) ∧
    match count with
    | some text => Number.Denotes text options.frames
    | none => options.frames = 60

theorem exists_writes {options : Options} (shaped : (Item.image options.image).Shaped)
    (small : options.frames < UInt32.size) : ∃ items, Writes options items :=
  ⟨_, shaped, some options.frames.repr, List.Perm.refl _, Number.denotes_repr small⟩

theorem eq_toList_of_perm {α : Type} {l : List α} {o : Option α} (order : l.Perm o.toList) :
    l = o.toList := by
  cases o with
  | none => exact order.eq_nil
  | some a => exact order.eq_singleton

theorem values_given (option given : Valued) (value : Option String) :
    values option (value.toList.map (.valued given)) =
      if given = option then value.toList else [] := by
  cases value with
  | none => exact (ite_self _).symm
  | some value =>
    by_cases same : given = option <;> simp [values, Item.value?, same]

theorem values_listed (option : Valued) (options : Options) (count : Option String) :
    values option (options.listed count) =
      (if option = .frames then count else options.text? option).toList := by
  have apart (items more : List Item) :
      values option (items ++ more) = values option items ++ values option more :=
    List.filterMap_append
  have image : values option [.image options.image] = [] := rfl
  have flag : values option (if options.colorize then [.colorize] else []) = [] := by
    split <;> rfl
  simp only [listed, List.flatMap_cons, List.flatMap_nil, List.append_nil, apart, image,
    values_given, flag]
  cases option <;> simp

theorem paths_listed (options : Options) (count : Option String) :
    paths (options.listed count) = [options.image] := by
  have apart (items more : List Item) : paths (items ++ more) = paths items ++ paths more :=
    List.filterMap_append
  have image : paths [.image options.image] = [options.image] := rfl
  have given (option : Valued) (value : Option String) :
      paths (value.toList.map (.valued option)) = [] := by
    cases value <;> rfl
  have flag : paths (if options.colorize then [.colorize] else []) = [] := by
    split <;> rfl
  simp only [listed, List.flatMap_cons, List.flatMap_nil, List.append_nil, apart, image, given,
    flag]

theorem mem_listed {options : Options} {count : Option String} {item : Item}
    (member : item ∈ options.listed count) :
    item = .image options.image ∨ (∃ option value, item = .valued option value) ∨
      options.colorize = true ∧ item = .colorize := by
  simp only [listed, List.mem_append, List.mem_singleton, List.mem_map, List.mem_flatMap] at member
  obtain ((rfl | ⟨value, -, rfl⟩) | ⟨option, -, value, -, rfl⟩) | flag := member
  · exact .inl rfl
  · exact .inr (.inl ⟨_, _, rfl⟩)
  · exact .inr (.inl ⟨_, _, rfl⟩)
  · split at flag
    · next h => exact .inr (.inr ⟨h, List.mem_singleton.mp flag⟩)
    · cases flag

section Writes
variable {options : Options} {items : List Item} (h : Writes options items)
include h

theorem Writes.paths : paths items = [options.image] := by
  obtain ⟨_, count, order, _⟩ := h
  have order := order.filterMap Item.path?
  exact (order.trans (.of_eq (paths_listed options count))).eq_singleton

theorem Writes.values : ∃ count : Option String,
    (match count with
      | some text => Number.Denotes text options.frames
      | none => options.frames = 60) ∧
    ∀ option, values option items =
      (if option = .frames then count else options.text? option).toList := by
  obtain ⟨_, count, order, counted⟩ := h
  refine ⟨count, counted, fun option => ?_⟩
  have order := (order.filterMap (Item.value? option)).trans
    (.of_eq (values_listed option options count))
  exact eq_toList_of_perm order

theorem Writes.fits : Fits (items.flatMap Item.written) items where
  shaped item member := by
    obtain ⟨shaped, count, order, _⟩ := h
    obtain rfl | ⟨option, value, rfl⟩ | ⟨-, rfl⟩ := mem_listed (order.mem_iff.mp member)
    · exact shaped
    · trivial
    · trivial
  written := rfl
  image := ⟨_, h.paths⟩
  frames := by
    obtain ⟨count, counted, values⟩ := h.values
    rw [values, if_pos rfl]
    cases count with
    | none => exact List.forall_mem_nil _
    | some text => exact List.forall_mem_singleton.mpr ⟨_, counted⟩

theorem Writes.means : Means items options where
  image := h.paths
  frames := by
    obtain ⟨count, counted, values⟩ := h.values
    rw [values, if_pos rfl]
    cases count <;> exact counted
  texts option other := by
    obtain ⟨_, _, values⟩ := h.values
    rw [values, if_neg other]
    cases options.text? option <;> rfl
  colorize := by
    obtain ⟨_, count, order, _⟩ := h
    rw [order.mem_iff]
    constructor
    · intro flag
      simp [listed, flag]
    · intro member
      obtain same | ⟨_, _, same⟩ | ⟨flag, -⟩ := mem_listed member
      · cases same
      · cases same
      · exact flag

end Writes

/-- What the command line accepts and what it comes to. Arguments are accepted when they are the
items of the grammar, which they are in one way at most; the options are what these items mean, and
only the order among items of one kind counts. Whatever options are written, in any order, they are
read back. -/
theorem parse_grammar :
    (∀ arguments : List String,
      (∃ options, parse arguments = .ok options) ↔ ∃ items, Fits arguments items) ∧
    (∀ arguments items, Fits arguments items →
      (∀ items', Fits arguments items' → items' = items) ∧
      ∃ options, parse arguments = .ok options ∧ Means items options ∧
        ∀ items', SameKinds items items' →
          parse (items'.flatMap Item.written) = .ok options) ∧
    (∀ options items, Writes options items →
      parse (items.flatMap Item.written) = .ok options) ∧
    ∀ options : Options, (Item.image options.image).Shaped → options.frames < UInt32.size →
      ∃ items, Writes options items := by
  refine ⟨fun arguments => ⟨?_, ?_⟩, fun arguments items fits => ⟨?_, ?_⟩, ?_, ?_⟩
  · rintro ⟨options, accepted⟩
    obtain ⟨items, fits, -⟩ := fits_of_parse accepted
    exact ⟨items, fits⟩
  · rintro ⟨items, fits⟩
    obtain ⟨options, accepted, -⟩ := fits.parse
    exact ⟨options, accepted⟩
  · intro items' fits'
    exact Item.eq_of_flatMap_written fits'.shaped fits.shaped
      (fits'.written.symm.trans fits.written)
  · obtain ⟨options, accepted, means⟩ := fits.parse
    refine ⟨options, accepted, means, fun items' same => ?_⟩
    exact (same.fits fits).parse_eq (same.means means)
  · intro options items writes
    exact writes.fits.parse_eq writes.means
  · intro options shaped small
    exact exists_writes shaped small

/-- A value is taken as it is. -/
theorem parse_grammar_dashes : ∃ options,
    parse ["--dump", "--colorize", "game.gb", "--dump", "--frames"] = .ok options ∧
      options.image = "game.gb" ∧ options.dump = some "--frames" ∧ options.frames = 60 := by
  have fits : Fits ["--dump", "--colorize", "game.gb", "--dump", "--frames"]
      [.valued .dump "--colorize", .image "game.gb", .valued .dump "--frames"] :=
    { shaped := by decide
      written := rfl
      image := ⟨_, rfl⟩
      frames := List.forall_mem_nil _ }
  obtain ⟨options, accepted, means, -⟩ := (parse_grammar.2.1 _ _ fits).2
  exact ⟨options, accepted, (List.cons.inj means.image).1.symm, means.texts .dump (by decide),
    means.frames⟩

end Options
end DotMatrix
