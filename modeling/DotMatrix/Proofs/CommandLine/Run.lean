import DotMatrix.CommandLine.Directory
import DotMatrix.Proofs.Console.Reachable
import Mathlib.Data.String.Basic

/-! A run of the player in a directory. It reads some files, and what it leaves is a few files more;
all others are as they were. -/
namespace DotMatrix

theorem toList_loop (bytes : ByteArray) (i : Nat) (read : List UInt8) :
    ByteArray.toList.loop bytes i read = read.reverse ++ bytes.data.toList.drop i := by
  fun_induction ByteArray.toList.loop bytes i read with
  | case1 i read inside ih =>
    have inside : i < bytes.data.toList.length := inside
    have next : bytes.get! i = bytes.data.toList[i] := by
      rw [Array.getElem_toList, ← getElem!_pos]
      rfl
    rw [ih, List.reverse_cons, List.append_assoc, List.singleton_append, next]
    exact congrArg _ (List.drop_eq_getElem_cons inside).symm
  | case2 i read outside =>
    rw [List.drop_eq_nil_of_le (Nat.le_of_not_lt outside), List.append_nil]

theorem toList_toByteArray (bytes : List UInt8) : bytes.toByteArray.toList = bytes := by
  rw [ByteArray.toList, toList_loop, List.drop_zero, List.toList_data_toByteArray]
  rfl

namespace Session
variable {m : Type → Type} [Monad m] [Host m]

def played (options : Options) : Step m Console := do
  let console ← start options
  refuse .fault (console.runFrames options.frames)

theorem run_eq [LawfulMonad m] (options : Options) :
    run (m := m) options = played options >>= finish options := by
  unfold run played
  rw [bind_assoc]

end Session

/-- What a run leaves, each file with its path; a path may lead to the file of an earlier one. -/
def Options.leaves (options : Options) (console : Console) : List (String × ByteArray) :=
  (options.dump.map (·, Picture.rgb24 console.pixels.toArray)).toList ++
    (options.saveTo.map (·, console.save.toByteArray)).toList ++
      (options.battery.bind fun path => console.batteryRam?.map fun ram => (path, ⟨ram⟩)).toList

def Options.outputs (options : Options) : List String :=
  options.dump.toList ++ options.saveTo.toList ++ options.battery.toList

theorem Options.leaves_sublist (options : Options) (console : Console) :
    ((options.leaves console).map (·.1)).Sublist options.outputs := by
  unfold leaves outputs
  rw [List.map_append, List.map_append]
  refine .append (.append ?_ ?_) ?_
  · cases options.dump <;> exact .refl _
  · cases options.saveTo <;> exact .refl _
  · cases options.battery with
    | none => exact .slnil
    | some path =>
      cases console.batteryRam? with
      | none => exact List.nil_sublist _
      | some ram => exact .refl _

def Console.withBattery (file : Option ByteArray) (c : Console) : Except LoadError Console :=
  match file with
  | none => .ok c
  | some data => c.loadBattery data.data

namespace Directory

def IsFile (path : String) : Prop := ∃ name, target path = .file name

theorem splitOnAux_plain (past rest : List Char) (plain : '/' ∉ rest) :
    String.splitOnAux (.ofList (past ++ rest)) "/" 0 ⟨String.utf8Len past⟩ 0 [] =
      [.ofList (past ++ rest)] := by
  -- `past` has been read, and nothing of the separator has come up in it.
  induction rest generalizing past with
  | nil =>
    have whole := String.extract_of_valid [] past []
    rw [String.utf8Len_nil, Nat.zero_add, List.nil_append] at whole
    rw [String.splitOnAux, if_pos (by simp [String.atEnd_iff])]
    change [String.Pos.Raw.extract (.ofList (past ++ [])) ⟨0⟩ ⟨String.utf8Len past⟩] = _
    rw [whole, List.append_nil]
  | cons c rest ih =>
    have other : c ≠ '/' := fun same => plain (same ▸ List.mem_cons_self)
    have next := ih (past ++ [c]) fun later => plain (List.mem_cons_of_mem c later)
    have slash : String.Pos.Raw.get "/" 0 = '/' := by decide
    have here := String.get_of_valid past (c :: rest)
    have after := String.next_of_valid past c rest
    have inside :
        String.Pos.Raw.atEnd (.ofList (past ++ c :: rest)) ⟨String.utf8Len past⟩ = false := by
      have size := Char.utf8Size_pos c
      simp only [Bool.eq_false_iff, ne_eq, String.atEnd_iff, String.rawEndPos_ofList,
        String.utf8Len_append, String.utf8Len_cons, String.Pos.Raw.mk_le_mk]
      omega
    have back : String.Pos.Raw.unoffsetBy ⟨String.utf8Len past⟩ 0 = ⟨String.utf8Len past⟩ := rfl
    rw [String.splitOnAux, if_neg (by rw [inside]; decide), here, slash, List.headD_cons,
      if_neg (by simpa using other), back, after]
    rw [List.append_assoc, List.singleton_append, String.utf8Len_append] at next
    simpa using next

def Plain (name : String) : Prop :=
  '/' ∉ name.toList ∧ '\x00' ∉ name.toList ∧ name ≠ "" ∧ name ≠ "." ∧ name ≠ ".."

instance (name : String) : Decidable (Plain name) := inferInstanceAs (Decidable (_ ∧ _))

theorem target_plain {name : String} (plain : Plain name) : target name = .file name := by
  obtain ⟨slash, null, some, here, above⟩ := plain
  have parts : name.splitOn "/" = [name] := by
    have whole := splitOnAux_plain [] name.toList slash
    rw [List.nil_append, String.ofList_toList] at whole
    exact whole
  have inside : name.contains '\x00' = false := by
    simp [null]
  have relative : name.startsWith "/" = false := by
    rw [Bool.eq_false_iff, ne_eq, String.startsWith_string_iff]
    exact fun first => slash (first.subset List.mem_cons_self)
  have step : stays name = false := by
    simp [stays, some, here]
  unfold target
  rw [parts, inside, relative]
  simp [step, some, above]

theorem lookup_put (name : String) (bytes : ByteArray) (files : List (String × ByteArray)) :
    (put name bytes files).lookup name = some bytes := by
  induction files with
  | nil => simp [put]
  | cons file rest ih =>
    rw [put]
    split
    · simp
    · rename_i other
      rw [List.lookup_cons, beq_eq_false_iff_ne.mpr (Ne.symm other)]
      exact ih

theorem lookup_put_of_ne {name other : String} (apart : other ≠ name) (bytes : ByteArray)
    (files : List (String × ByteArray)) :
    (put name bytes files).lookup other = files.lookup other := by
  have skipped : (other == name) = false := beq_eq_false_iff_ne.mpr apart
  induction files with
  | nil =>
    rw [put, List.lookup_cons, skipped]
  | cons file rest ih =>
    obtain ⟨taken, old⟩ := file
    rw [put]
    split
    case isTrue same =>
      rw [same, List.lookup_cons, List.lookup_cons, skipped]
    case isFalse =>
      rw [List.lookup_cons, List.lookup_cons, ih]

def store (path : String) (bytes : ByteArray) (d : Directory) : Directory :=
  { d with
    files := match target path with
      | .file name => put name bytes d.files
      | _ => d.files }

theorem read?_store {path : String} (file : IsFile path) (bytes : ByteArray) (d : Directory) :
    (d.store path bytes).read? path = some bytes := by
  obtain ⟨name, leads⟩ := file
  unfold read? store
  rw [leads]
  exact lookup_put name bytes d.files

theorem read?_store_of_ne {path other : String} (apart : target other ≠ target path)
    (bytes : ByteArray) (d : Directory) : (d.store path bytes).read? other = d.read? other := by
  unfold read? store
  cases leads : target other with
  | file name =>
    cases elsewhere : target path with
    | file taken =>
      have names : name ≠ taken := fun same => apart (by rw [leads, elsewhere, same])
      exact lookup_put_of_ne names bytes d.files
    | _ => rfl
  | _ => rfl

def storeAll (d : Directory) : List (String × ByteArray) → Directory
  | [] => d
  | (path, bytes) :: rest => (d.store path bytes).storeAll rest

theorem storeAll_append (d : Directory) (first rest : List (String × ByteArray)) :
    d.storeAll (first ++ rest) = (d.storeAll first).storeAll rest := by
  induction first generalizing d with
  | nil => rfl
  | cons file first ih => exact ih _

theorem read?_storeAll_of_ne {path : String} {files : List (String × ByteArray)}
    (apart : ∀ file ∈ files, target path ≠ target file.1) (d : Directory) :
    (d.storeAll files).read? path = d.read? path := by
  induction files generalizing d with
  | nil => rfl
  | cons file rest ih =>
    refine (ih (fun file later => apart file (List.mem_cons_of_mem _ later)) _).trans ?_
    exact read?_store_of_ne (apart file List.mem_cons_self) file.2 d

theorem read?_storeAll {path : String} {bytes : ByteArray} {files : List (String × ByteArray)}
    (distinct : files.Pairwise (target ·.1 ≠ target ·.1)) (file : IsFile path)
    (written : (path, bytes) ∈ files) (d : Directory) :
    (d.storeAll files).read? path = some bytes := by
  induction files generalizing d with
  | nil => cases written
  | cons last rest ih =>
    rw [List.pairwise_cons] at distinct
    rcases List.mem_cons.mp written with rfl | later
    · exact (read?_storeAll_of_ne distinct.1 _).trans (read?_store file bytes d)
    · exact ih distinct.2 later _

/-- The paths lead to files, each to another one. -/
structure Apart (paths : List String) : Prop where
  files : ∀ path ∈ paths, IsFile path
  distinct : paths.Pairwise (target · ≠ target ·)

theorem Apart.of_plain {names : List String} (plain : ∀ name ∈ names, Plain name)
    (distinct : names.Nodup) : Apart names where
  files name inside := ⟨name, target_plain (plain name inside)⟩
  distinct := distinct.imp_of_mem fun {first second} hf hs apart same => by
    rw [target_plain (plain first hf), target_plain (plain second hs)] at same
    exact apart (Target.file.inj same)

theorem Apart.sublist {paths some : List String} (apart : Apart paths) (part : some.Sublist paths) :
    Apart some :=
  ⟨fun path inside => apart.files path (part.subset inside), apart.distinct.sublist part⟩

section Leaves
variable {options : Options} {c : Console} {path : String}

theorem Apart.leaves (apart : Apart options.outputs) (c : Console) :
    (options.leaves c).Pairwise (target ·.1 ≠ target ·.1) := by
  have paths := apart.distinct.sublist (options.leaves_sublist c)
  rw [List.pairwise_map] at paths
  exact paths

theorem read?_dump (apart : Apart options.outputs) (dump : options.dump = some path)
    (c : Console) (d : Directory) :
    (d.storeAll (options.leaves c)).read? path = some (Picture.rgb24 c.pixels.toArray) := by
  refine read?_storeAll (apart.leaves c) (apart.files path ?_) ?_ d
  · simp [Options.outputs, dump]
  · simp [Options.leaves, dump]

theorem read?_saveTo (apart : Apart options.outputs) (saveTo : options.saveTo = some path)
    (c : Console) (d : Directory) :
    (d.storeAll (options.leaves c)).read? path = some c.save.toByteArray := by
  refine read?_storeAll (apart.leaves c) (apart.files path ?_) ?_ d
  · simp [Options.outputs, saveTo]
  · simp [Options.leaves, saveTo]

theorem read?_battery (apart : Apart options.outputs) (battery : options.battery = some path)
    (c : Console) (d : Directory) :
    (d.storeAll (options.leaves c)).read? path =
      (c.batteryRam?.map (⟨·⟩ : Array UInt8 → ByteArray)).or (d.read? path) := by
  have inside : path ∈ options.outputs := by
    simp [Options.outputs, battery]
  cases ram : c.batteryRam? with
  | some ram' =>
    refine read?_storeAll (apart.leaves c) (apart.files path inside) ?_ d
    simp [Options.leaves, battery, ram]
  | none =>
    -- Without RAM the run leaves what it would leave without a battery file.
    have batteryless : options.leaves c = { options with battery := none }.leaves c := by
      unfold Options.leaves
      rw [battery, ram]
      rfl
    refine read?_storeAll_of_ne (fun file left => ?_) d
    rw [batteryless] at left
    have document := (Options.leaves_sublist _ c).subset (List.mem_map_of_mem left)
    have earlier := (List.pairwise_append.mp apart.distinct).2.2
    refine (earlier file.1 ?_ path (by simp [battery])).symm
    rwa [Options.outputs, Option.toList_none, List.append_nil] at document

theorem read?_elsewhere (elsewhere : ∀ output ∈ options.outputs, target path ≠ target output)
    (c : Console) (d : Directory) :
    (d.storeAll (options.leaves c)).read? path = d.read? path :=
  read?_storeAll_of_ne (fun file left => elsewhere file.1
    ((options.leaves_sublist c).subset (List.mem_map_of_mem left))) d

end Leaves

theorem contains_of_isFile {path : String} (file : IsFile path) {d : Directory} :
    d.contains path = (d.read? path).isSome := by
  obtain ⟨name, leads⟩ := file
  unfold contains read?
  rw [leads]

theorem storeAll_printed (d : Directory) (printed : String) (files : List (String × ByteArray)) :
    { d with printed }.storeAll files = { d.storeAll files with printed } := by
  induction files generalizing d with
  | nil => rfl
  | cons file rest ih => exact ih (d.store file.1 file.2)

section Outcome
open Session
variable {α β : Type} {d e : Directory} {step : Step (StateM Directory) α} {a : α}

def outcome (d : Directory) (step : Step (StateM Directory) α) : Except RunError α × Directory :=
  step.run.run d

theorem outcome_bind {next : α → Step (StateM Directory) β} (goes : d.outcome step = (.ok a, e)) :
    d.outcome (step >>= next) = e.outcome (next a) := by
  change step d = (.ok a, e) at goes
  change (match step d with | (result, after) => ExceptT.bindCont next result after) = _
  rw [goes]
  rfl

theorem outcome_refuse {ε : Type} {cause : ε → RunError} {result : Except ε α}
    (accepted : result = .ok a) :
    d.outcome (refuse cause result : Step (StateM Directory) α) = (.ok a, d) := by
  subst accepted
  rfl

theorem outcome_readOr {error : RunError} {path : String} {bytes : ByteArray}
    (there : d.read? path = some bytes) :
    d.outcome (readOr error path : Step (StateM Directory) ByteArray) = (.ok bytes, d) := by
  have read : d.outcome (Host.readFile path : StateM Directory _) = (.ok (d.read? path), d) := rfl
  unfold readOr
  rw [outcome_bind read, there]
  rfl

theorem outcome_writeOr {error : RunError} {path : String} (file : IsFile path)
    (bytes : ByteArray) (d : Directory) :
    d.outcome (writeOr error path bytes : Step (StateM Directory) Unit) =
      (.ok (), d.store path bytes) := by
  obtain ⟨name, leads⟩ := file
  have written : d.outcome (Host.writeFile path bytes : StateM Directory _) =
      (.ok true, d.store path bytes) := by
    unfold store
    simp only [Host.writeFile, leads]
    rfl
  unfold writeOr
  rw [outcome_bind written]
  rfl

/-! The parts of a run. -/

variable {options : Options} {c last : Console}

theorem outcome_powerOn {image : Image} {header : Header}
    (inserted : d.read? options.image = some image) (accepted : Header.parse image = .ok header) :
    d.outcome (powerOn options) =
      (.ok (.started image { Settings.standard with colorize := options.colorize } header), d) := by
  unfold powerOn
  rw [outcome_bind (outcome_readOr inserted)]
  exact outcome_refuse (Console.powerOn_started accepted _)

theorem outcome_insertBattery {battery : Option String} (files : ∀ path ∈ battery, IsFile path)
    {inserted : Console} (fits : c.withBattery (battery.bind d.read?) = .ok inserted) :
    d.outcome (insertBattery battery c) = (.ok inserted, d) := by
  unfold insertBattery
  cases battery with
  | none =>
    cases fits
    rfl
  | some path =>
    have there : d.outcome (Host.fileExists path : StateM Directory _) =
        (.ok (d.read? path).isSome, d) := by
      rw [← contains_of_isFile (files path rfl)]
      rfl
    dsimp only
    rw [outcome_bind there]
    change c.withBattery (d.read? path) = _ at fits
    cases found : d.read? path with
    | none =>
      rw [found] at fits
      cases fits
      rfl
    | some data =>
      rw [found] at fits
      rw [Option.isSome_some, if_pos rfl, outcome_bind (outcome_readOr found)]
      exact outcome_refuse fits

theorem outcome_loadSnapshot {path : String} {bytes : ByteArray}
    (there : d.read? path = some bytes) {next : Console}
    (accepted : c.load bytes.toList = .ok next) :
    d.outcome (loadSnapshot (some path) c) = (.ok next, d) := by
  unfold loadSnapshot
  dsimp only
  rw [outcome_bind (outcome_readOr there)]
  exact outcome_refuse accepted

theorem outcome_start {image : Image} {header : Header} {next : Console}
    (inserted : d.read? options.image = some image) (accepted : Header.parse image = .ok header)
    (files : ∀ path ∈ options.battery, IsFile path)
    (battery : Console.withBattery (options.battery.bind d.read?)
      (.started image { Settings.standard with colorize := options.colorize } header) = .ok c)
    (snapshot : d.outcome (loadSnapshot options.loadFrom c) = (.ok next, d)) :
    d.outcome (start options) = (.ok next, d) := by
  have on : d.outcome (powerOn options >>= insertBattery options.battery) = (.ok c, d) :=
    (outcome_bind (outcome_powerOn inserted accepted)).trans (outcome_insertBattery files battery)
  unfold start
  rw [outcome_bind on]
  exact snapshot

def played (options : Options) (d : Directory) : Except RunError Console :=
  (d.outcome (Session.played options)).1

theorem outcome_played (begins : d.outcome (start options) = (.ok c, d))
    (runs : c.runFrames options.frames = .ok last) :
    d.outcome (Session.played options) = (.ok last, d) := by
  unfold Session.played
  rw [outcome_bind begins]
  exact outcome_refuse runs

theorem outcome_printSent (c : Console) (d : Directory) :
    ∃ printed, d.outcome (printSent c) = (.ok (), { d with printed }) := by
  unfold printSent
  dsimp only
  cases c.serialOutput.isEmpty with
  | true => exact ⟨d.printed, rfl⟩
  | false => exact ⟨_, rfl⟩

theorem outcome_writePicture (files : ∀ path ∈ options.dump, IsFile path) (c : Console)
    (d : Directory) :
    ∃ printed, d.outcome (writePicture options c) =
      (.ok (), { d.storeAll
        (options.dump.map (·, Picture.rgb24 c.pixels.toArray)).toList with printed }) := by
  unfold writePicture
  cases dump : options.dump with
  | none => exact ⟨d.printed, rfl⟩
  | some path =>
    dsimp only
    rw [outcome_bind (outcome_writeOr (files path dump) _ d)]
    exact ⟨_, rfl⟩

theorem outcome_writeSnapshot {snapshot : Option String}
    (files : ∀ path ∈ snapshot, IsFile path) (c : Console) (d : Directory) :
    d.outcome (writeSnapshot snapshot c) =
      (.ok (), d.storeAll (snapshot.map (·, c.save.toByteArray)).toList) := by
  unfold writeSnapshot
  cases snapshot with
  | none => rfl
  | some path => exact outcome_writeOr (files path rfl) _ d

theorem outcome_writeBattery {battery : Option String}
    (files : ∀ path ∈ battery, IsFile path) (c : Console) (d : Directory) :
    d.outcome (writeBattery battery c) =
      (.ok (), d.storeAll
        (battery.bind fun path => c.batteryRam?.map fun ram => (path, ⟨ram⟩)).toList) := by
  unfold writeBattery
  cases battery with
  | none => rfl
  | some path =>
    dsimp only
    cases c.batteryRam? with
    | none => rfl
    | some ram => exact outcome_writeOr (files path rfl) _ d

/-- A run that comes to its last frame prints, and leaves its files. -/
theorem run_played (plays : d.outcome (Session.played options) = (.ok last, d))
    (files : ∀ path ∈ options.outputs, IsFile path) :
    ∃ printed, d.run options = (.ok (), { d.storeAll (options.leaves last) with printed }) := by
  obtain ⟨sent, prints⟩ := outcome_printSent last d
  have dump (path : String) (dump : path ∈ options.dump) : IsFile path :=
    files path (List.mem_append_left _ (List.mem_append_left _ (Option.mem_toList.mpr dump)))
  have saveTo (path : String) (saveTo : path ∈ options.saveTo) : IsFile path :=
    files path (List.mem_append_left _ (List.mem_append_right _ (Option.mem_toList.mpr saveTo)))
  have battery (path : String) (battery : path ∈ options.battery) : IsFile path :=
    files path (List.mem_append_right _ (Option.mem_toList.mpr battery))
  obtain ⟨printed, pictures⟩ := outcome_writePicture dump last { d with printed := sent }
  refine ⟨printed, ?_⟩
  change d.outcome (Session.run options) = _
  rw [Session.run_eq, outcome_bind plays]
  unfold finish Options.leaves
  rw [outcome_bind prints, outcome_bind pictures,
    outcome_bind (outcome_writeSnapshot saveTo last _), outcome_writeBattery battery]
  simp only [storeAll_append, storeAll_printed]

end Outcome
end Directory
end DotMatrix
