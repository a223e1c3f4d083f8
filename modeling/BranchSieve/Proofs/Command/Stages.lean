import BranchSieve.Proofs.Command.Printing
import BranchSieve.Proofs.Listing.Location
import Mathlib.Data.List.Basic

/-!
# The stage at which a command fails

A command goes through stages: it reads its configuration, looks up the filters that are disabled
there, and reads the listing. It ends at the first stage that fails, with the error of that stage,
and it prints nothing before it has passed the last one, however much of the listing has been read.
-/

namespace BranchSieve

namespace Directory

/-- The bytes of a file are the UTF-8 of a text. -/
def Holds (directory : Directory) (path text : String) : Prop :=
  directory path = some text.toUTF8

variable {directory : Directory} {file : InputFile} {text : String} {error : CommandError}

theorem fromUTF8?_eq_some_iff {bytes : ByteArray} :
    String.fromUTF8? bytes = some text ↔ bytes = text.toUTF8 := by
  unfold String.fromUTF8?
  constructor
  · intro read
    split at read
    · cases read
      rfl
    · cases read
  · intro same
    subst same
    exact dif_pos text.isValidUTF8

theorem readText_eq_ok_iff :
    directory.readText file = .ok text ↔ directory.Holds file.path text := by
  have read : (directory file.path).bind String.fromUTF8? = some text ↔
      directory.Holds file.path text := by
    simp only [Option.bind_eq_some_iff, fromUTF8?_eq_some_iff, exists_eq_right, Holds]
  rw [← read, readText]
  cases (directory file.path).bind String.fromUTF8? with
  | none => simp
  | some found => simp

/-- A file that holds no text is told. -/
theorem readText_eq_error_iff : directory.readText file = .error error ↔
    (∀ text, ¬ directory.Holds file.path text) ∧ error = .unreadableFile file := by
  simp only [← readText_eq_ok_iff]
  unfold readText
  cases (directory file.path).bind String.fromUTF8? with
  | none => simp [eq_comm]
  | some found => simp

end Directory

/-- Some filter has the name. -/
def IsFilterName (name : String) : Prop := ∃ filter : Filter, filter.name = name

namespace Command

open Printing

/-- The file that holds the listing. -/
def input : Command → String
  | .decode input => input
  | .filter input _ _ => input

/-- The configuration is the default one, or a file holds it. -/
inductive Configured (directory : Directory) : Option String → Config → Prop where
  | byDefault : Configured directory none {}
  | byFile {path text : String} {config : Config} (held : directory.Holds path text)
      (accepted : Config.parse? text = some config) : Configured directory (some path) config

/-- The configuration cannot be read, or it is refused. -/
inductive ConfigFails (directory : Directory) : Option String → CommandError → Prop where
  | unreadable {path : String} (unread : ∀ text, ¬ directory.Holds path text) :
      ConfigFails directory (some path) (.unreadableFile (.config path))
  | refused {path text : String} (held : directory.Holds path text)
      (refused : Config.parse? text = none) :
      ConfigFails directory (some path) (.invalidConfig path)

/-- Of the names that are disabled, this is the first one that no filter has. -/
def FirstUnknown (config : Config) (name : String) : Prop :=
  ∃ known others, config.disabledFilters = known ++ name :: others ∧
    (∀ other ∈ known, IsFilterName other) ∧ ¬ IsFilterName name

/-- The listing cannot be read, or it is refused. -/
inductive ListingFails [Overflow] (directory : Directory) (input : String) :
    CommandError → Prop where
  | unreadable (unread : ∀ text, ¬ directory.Holds input text) :
      ListingFails directory input (.unreadableFile (.listing input))
  | refused {text : String} {error : Listing.ParseError} (held : directory.Holds input text)
      (refused : Listing.parse text = .error error) (told : error.isStop = false) :
      ListingFails directory input (.invalidListing error)

/-- A counter stops the program while it reads the listing. -/
def ListingStops [Overflow] (directory : Directory) (input : String) : Prop :=
  ∃ text error, directory.Holds input text ∧ Listing.parse text = .error error ∧
    error.isStop = true

/-- The error of the first stage of a command that fails. -/
inductive FailsWith [Overflow] (directory : Directory) : Command → CommandError → Prop where
  | decode {input : String} {error : CommandError} (failed : ListingFails directory input error) :
      FailsWith directory (.decode input) error
  | config {input : String} {configPath : Option String} {asJson : Bool} {error : CommandError}
      (failed : ConfigFails directory configPath error) :
      FailsWith directory (.filter input configPath asJson) error
  | filters {input : String} {configPath : Option String} {asJson : Bool} {config : Config}
      {name : String} (configured : Configured directory configPath config)
      (unknown : FirstUnknown config name) :
      FailsWith directory (.filter input configPath asJson) (.unknownFilter name)
  | listing {input : String} {configPath : Option String} {asJson : Bool} {config : Config}
      {error : CommandError} (configured : Configured directory configPath config)
      (known : ∀ name ∈ config.disabledFilters, IsFilterName name)
      (failed : ListingFails directory input error) :
      FailsWith directory (.filter input configPath asJson) error

variable {directory : Directory} {path input text : String} {configPath : Option String}
  {config : Config} {error : CommandError} {command : Command}

/-! ## Single stages -/

theorem readListing_eq_error_iff [Overflow] :
    directory.readListing input = .error error ↔
      (∀ text, ¬ directory.Holds input text) ∧ error = .unreadableFile (.listing input) ∨
        ∃ text cause, directory.Holds input text ∧ Listing.parse text = .error cause ∧
          error = .invalidListing cause := by
  simp only [Directory.readListing, bind_eq_error_iff, Directory.readText_eq_error_iff,
    Directory.readText_eq_ok_iff, InputFile.path, mapError_eq_error_iff, eq_comm (a := error),
    ← exists_and_left]

/-- A listing that fails ends the program with its error. -/
theorem ListingFails.interrupt_eq [Overflow] (failed : ListingFails directory input error) :
    directory.readListing input = .error error ∧ error.interrupt = .failed error := by
  rw [readListing_eq_error_iff]
  cases failed with
  | unreadable unread => exact ⟨.inl ⟨unread, rfl⟩, rfl⟩
  | refused held refused told =>
    exact ⟨.inr ⟨_, _, held, refused, rfl⟩, if_neg (Bool.eq_false_iff.1 told)⟩

theorem ListingStops.interrupt_eq [Overflow] (stopped : ListingStops directory input) :
    ∃ error, directory.readListing input = .error error ∧ error.interrupt = .stopped := by
  obtain ⟨text, cause, held, refused, stop⟩ := stopped
  exact ⟨_, readListing_eq_error_iff.2 (.inr ⟨text, cause, held, refused, rfl⟩), if_pos stop⟩

/-- A listing that is not read fails, or a counter stops the program. -/
theorem listingFails_or_listingStops [Overflow]
    (given : directory.readListing input = .error error) :
    ListingFails directory input error ∨ ListingStops directory input := by
  rcases readListing_eq_error_iff.1 given with ⟨unread, rfl⟩ | ⟨text, cause, held, refused, rfl⟩
  · exact .inl (.unreadable unread)
  · cases stop : cause.isStop with
    | false => exact .inl (.refused held refused stop)
    | true => exact .inr ⟨text, cause, held, refused, stop⟩

theorem loadConfig_eq_ok_iff :
    loadConfig directory configPath = .ok config ↔ Configured directory configPath config := by
  cases configPath with
  | none =>
    constructor
    · intro loaded
      cases loaded
      exact .byDefault
    · intro configured
      cases configured
      rfl
  | some path =>
    simp only [loadConfig, Directory.readConfig, bind_eq_ok_iff, Directory.readText_eq_ok_iff,
      InputFile.path]
    constructor
    · rintro ⟨text, held, loaded⟩
      cases accepted : Config.parse? text with
      | none =>
        rw [accepted] at loaded
        cases loaded
      | some found =>
        rw [accepted] at loaded
        cases loaded
        exact .byFile held accepted
    · intro configured
      cases configured with
      | byFile held accepted => exact ⟨_, held, by rw [accepted]⟩

theorem ConfigFails.interrupt_eq (failed : ConfigFails directory configPath error) :
    error.interrupt = .failed error := by
  cases failed with
  | unreadable unread => rfl
  | refused held refused => rfl

theorem loadConfig_eq_error_iff :
    loadConfig directory configPath = .error error ↔ ConfigFails directory configPath error := by
  cases configPath with
  | none => exact iff_of_false nofun nofun
  | some path =>
    simp only [loadConfig, Directory.readConfig, bind_eq_error_iff, Directory.readText_eq_error_iff,
      Directory.readText_eq_ok_iff, InputFile.path]
    constructor
    · rintro (⟨unread, rfl⟩ | ⟨text, held, failed⟩)
      · exact .unreadable unread
      · cases refused : Config.parse? text with
        | none =>
          rw [refused] at failed
          cases failed
          exact .refused held refused
        | some found =>
          rw [refused] at failed
          cases failed
    · intro failed
      cases failed with
      | unreadable unread => exact .inl ⟨unread, rfl⟩
      | refused held refused => exact .inr ⟨_, held, by rw [refused]⟩

theorem all_name_ne_eq_true_iff {name : String} :
    Filter.all.all (·.name ≠ name) = true ↔ ¬ IsFilterName name := by
  have listed : ∀ filter : Filter, filter ∈ Filter.all := by
    intro filter
    cases filter
    exact List.mem_singleton_self _
  simp [IsFilterName, listed]

/-- The search for a name that no filter has ends at the first one. -/
theorem filters_eq_error_iff {name : String} :
    config.filters = .error name ↔ FirstUnknown config name := by
  have first : config.unknownFilter? = some name ↔ FirstUnknown config name := by
    simp only [Config.unknownFilter?, List.find?_eq_some_iff_append, all_name_ne_eq_true_iff,
      Bool.not_eq_true', ← Bool.not_eq_true, not_not, FirstUnknown]
    constructor
    · rintro ⟨here, known, others, split, before⟩
      exact ⟨known, others, split, before, here⟩
    · rintro ⟨known, others, split, before, here⟩
      exact ⟨here, known, others, split, before⟩
  rw [← first, Config.filters]
  cases config.unknownFilter? with
  | none => simp
  | some found => simp

/-- A configuration is accepted if it disables nothing but filters. -/
theorem exists_filters_eq_ok_iff :
    (∃ filters, config.filters = .ok filters) ↔
      ∀ name ∈ config.disabledFilters, IsFilterName name := by
  have none_unknown : config.unknownFilter? = none ↔
      ∀ name ∈ config.disabledFilters, IsFilterName name := by
    simp only [Config.unknownFilter?, List.find?_eq_none, all_name_ne_eq_true_iff,
      not_not]
  rw [← none_unknown, Config.filters]
  cases config.unknownFilter? with
  | none => simp
  | some found => simp

/-! ## All stages -/

/-- A command that has passed its stages prints a node: `decode` each one of the listing, `filter`
    those at the ends of a range, unless it prints JSON. -/
inductive PrintsNode [Overflow] (directory : Directory) : Command → Node → Prop where
  | decode {input : String} {listing : ClassListing} {method : Method} {node : Node}
      (listed : directory.readListing input = .ok listing) (declared : method ∈ listing.methods)
      (inside : node ∈ method.body.nodes.toList) : PrintsNode directory (.decode input) node
  | filter {input : String} {configPath : Option String} {config : Config} {filters : List Filter}
      {listing : ClassListing} {method : Method} {report : MethodReport} {range : IgnoreRange}
      {node : Node} (configured : loadConfig directory configPath = .ok config)
      (accepted : config.filters = .ok filters) (listed : directory.readListing input = .ok listing)
      (reported : (method, report) ∈ listing.methods.zip (listing.analyze filters config).methods)
      (found : range ∈ report.ranges) (shown : method.body.Shows range node) :
      PrintsNode directory (.filter input configPath false) node

/-- A command that has passed its stages goes through a table that ends with one of the greatest
    keys, while it reads the listing or while it prints. -/
inductive Overruns [Overflow] (directory : Directory) (command : Command) : Prop where
  | reading (stopped : ListingStops directory command.input)
  | printing {node : Node} (shown : command.PrintsNode directory node) (long : ¬ node.IsCountable)

section Stages

variable [overflow : Overflow] {filters : List Filter} {listing : ClassListing}

/-- A stage that fails ends the run, and nothing has been printed. -/
theorem FailsWith.runFrom (fails : command.FailsWith directory error) (printed : String) :
    (command.print directory).runFrom printed = (.error (.failed error), printed) := by
  cases fails with
  | decode failed =>
    obtain ⟨unread, told⟩ := failed.interrupt_eq
    rw [print, unread, runFrom_stage_error_bind, told]
  | config failed =>
    rw [print, loadConfig_eq_error_iff.2 failed, runFrom_stage_error_bind, failed.interrupt_eq]
  | @filters _ _ _ config name configured unknown =>
    have refused : config.filters.mapError CommandError.unknownFilter =
        .error (.unknownFilter name) :=
      mapError_eq_error_iff.2 ⟨name, filters_eq_error_iff.2 unknown, rfl⟩
    rw [print, loadConfig_eq_ok_iff.2 configured, stage_ok_bind, refused,
      runFrom_stage_error_bind]
    rfl
  | listing configured known failed =>
    rcases exists_filters_eq_ok_iff.2 known with ⟨filters, accepted⟩
    obtain ⟨unread, told⟩ := failed.interrupt_eq
    rw [print, loadConfig_eq_ok_iff.2 configured, stage_ok_bind, mapError_eq_ok_iff.2 accepted,
      stage_ok_bind, unread, runFrom_stage_error_bind, told]

theorem FailsWith.run (fails : command.FailsWith directory error) :
    command.run directory = .failure error := by
  rw [Command.run, outcome, fails.runFrom]
  rfl

/-- What `filter` runs when it has passed its stages. -/
theorem print_filter (configured : loadConfig directory configPath = .ok config)
    (accepted : config.filters = .ok filters) (listed : directory.readListing input = .ok listing)
    (asJson : Bool) :
    (filter input configPath asJson).print directory =
      if asJson then Printing.print ((listing.analyze filters config).toJson.render ++ "\n")
      else (listing.methods.zip (listing.analyze filters config).methods).forM
        fun (method, found) => method.printReport found := by
  rw [print, configured, stage_ok_bind, mapError_eq_ok_iff.2 accepted, stage_ok_bind, listed,
    stage_ok_bind]

theorem endsIf_decode (listed : directory.readListing input = .ok listing) :
    ((decode input).print directory).EndsIf
      (∀ node, (decode input).PrintsNode directory node → overflow = .stops →
        node.IsCountable) := by
  rw [print, listed, stage_ok_bind]
  refine listing.endsIf_indexed.congr ?_
  constructor
  · intro countable node printed
    cases printed with
    | decode listed' declared inside =>
      cases listed.symm.trans listed'
      exact countable _ declared node inside
  · intro countable method declared node inside
    exact countable node (.decode listed declared inside)

theorem endsIf_filter (configured : loadConfig directory configPath = .ok config)
    (accepted : config.filters = .ok filters) (listed : directory.readListing input = .ok listing)
    (asJson : Bool) :
    ((filter input configPath asJson).print directory).EndsIf
      (∀ node, (filter input configPath asJson).PrintsNode directory node → overflow = .stops →
        node.IsCountable) := by
  rw [print_filter configured accepted listed]
  cases asJson with
  | true =>
    rw [if_pos rfl]
    refine (Printing.endsIf_print _).congr (iff_of_true trivial ?_)
    intro node printed
    cases printed
  | false =>
    rw [if_neg Bool.false_ne_true]
    have reports := endsIf_forM
      (fun (entry : Method × MethodReport) => entry.1.endsIf_report entry.2)
      (listing.methods.zip (listing.analyze filters config).methods)
    refine reports.congr ?_
    constructor
    · intro countable node printed
      cases printed with
      | filter configured' accepted' listed' reported found shown =>
        cases configured.symm.trans configured'
        cases accepted.symm.trans accepted'
        cases listed.symm.trans listed'
        exact countable _ reported _ found node shown
    · rintro countable ⟨method, report⟩ reported range found node shown
      exact countable node (.filter configured accepted listed reported found shown)

/-- Where the listing is read, it is the tables that are printed that count. -/
theorem not_overruns_iff (read : ∃ listing, directory.readListing command.input = .ok listing) :
    (overflow = .stops → ¬ command.Overruns directory) ↔
      ∀ node, command.PrintsNode directory node → overflow = .stops → node.IsCountable := by
  constructor
  · intro counted node shown stops
    by_contra long
    exact counted stops (.printing shown long)
  · intro countable stops overruns
    cases overruns with
    | reading stopped =>
      obtain ⟨listing, listed⟩ := read
      obtain ⟨error, unread, -⟩ := stopped.interrupt_eq
      cases listed.symm.trans unread
    | printing shown long => exact long (countable _ shown stops)

theorem ListingStops.endsIf {program : Printing Unit}
    (stopped : ListingStops directory command.input) (stops : program.Stops) :
    program.EndsIf (overflow = .stops → ¬ command.Overruns directory) where
  prints counted := by
    have overruns : command.Overruns directory := .reading stopped
    obtain ⟨text, cause, -, refused, stop⟩ := stopped
    exact absurd overruns (counted (Listing.stops_of_parse refused stop))
  stops _ := stops

/-- A command that passes its stages comes to its end, unless a counter stops it. -/
theorem endsIf_print (passed : ∀ error, ¬ command.FailsWith directory error) :
    (command.print directory).EndsIf (overflow = .stops → ¬ command.Overruns directory) := by
  cases command with
  | decode input =>
    cases listed : directory.readListing input with
    | error error =>
      rcases listingFails_or_listingStops listed with failed | stopped
      · exact absurd (.decode failed) (passed error)
      · obtain ⟨error, unread, stop⟩ := stopped.interrupt_eq
        apply stopped.endsIf
        rw [print, unread]
        exact stops_stage_bind stop _
    | ok listing => exact (endsIf_decode listed).congr (not_overruns_iff ⟨listing, listed⟩).symm
  | filter input configPath asJson =>
    cases configured : loadConfig directory configPath with
    | error error => exact absurd (.config (loadConfig_eq_error_iff.1 configured)) (passed error)
    | ok config =>
      have isConfigured := loadConfig_eq_ok_iff.1 configured
      cases accepted : config.filters with
      | error name =>
        exact absurd (.filters isConfigured (filters_eq_error_iff.1 accepted)) (passed _)
      | ok filters =>
        have known := exists_filters_eq_ok_iff.1 ⟨filters, accepted⟩
        cases listed : directory.readListing input with
        | error error =>
          rcases listingFails_or_listingStops listed with failed | stopped
          · exact absurd (.listing isConfigured known failed) (passed error)
          · obtain ⟨error, unread, stop⟩ := stopped.interrupt_eq
            apply stopped.endsIf
            rw [print, configured, stage_ok_bind, mapError_eq_ok_iff.2 accepted, stage_ok_bind,
              unread]
            exact stops_stage_bind stop _
        | ok listing =>
          refine (endsIf_filter configured accepted listed asJson).congr ?_
          exact (not_overruns_iff ⟨listing, listed⟩).symm

end Stages

end Command

end BranchSieve
