-- SUMMARY: What is written after logging was set up, however often and on whatever loggers.
import EpcTag.Logging.Basic
import EpcTag.Ordering
import Mathlib.Tactic

/-!
# Repeated setups of logging

A record reaches every handler that is on its logger or above it, and each of them once,
because the loggers above it are different ones. Setting logging up takes away as many
handlers as the setup before had put there, so whatever else is there stays, and beside it
there are the handlers of the last setup only. One of these writes to the output and one to
the error output, and the limit of the first is the level of the second, so of the two
exactly one writes a record that is serious enough.
-/

namespace EpcTag

/-- Where a record of a rank is shown: the output is for what is no warning. -/
def Sink.ofRank (rank : Int) : Sink := if rank < Severity.warning.rank then .output else .errors

namespace LoggingSetup

/-- The handlers of a setup, each on its target. -/
def placed (setup : LoggingSetup) : List (LoggerPath × Handler) :=
  setup.handlers.map fun handler => (setup.target, handler)

end LoggingSetup

namespace Logging

variable {logging : Logging} {upper path : LoggerPath} {record : LogRecord}
  {handlers others installed : List (LoggerPath × Handler)}

/-! ## Handlers above a logger -/

/-- On the way up to the root there are the loggers above, and no others. -/
theorem mem_upward_iff : upper ∈ upward path ↔ upper.isAbove path = true := by
  rw [LoggerPath.isAbove, List.isPrefixOf_iff_prefix]
  constructor
  · intro hmem
    obtain ⟨length, -, rfl⟩ := List.mem_map.mp hmem
    exact List.take_prefix length path
  · intro hprefix
    refine List.mem_map.mpr ⟨upper.length, ?_, (List.prefix_iff_eq_take.mp hprefix).symm⟩
    simpa using Nat.lt_succ_of_le hprefix.length_le

/-- No logger is passed twice on the way up. -/
theorem nodup_upward (path : LoggerPath) : (upward path).Nodup := by
  refine List.Nodup.map_on (fun m hm n hn heq => ?_) (List.nodup_reverse.mpr List.nodup_range)
  have hlength := congrArg List.length heq
  simp only [List.mem_reverse, List.mem_range] at hm hn
  rw [List.length_take, List.length_take] at hlength
  omega

/-- The handlers that are on a logger or above it. -/
def above (handlers : List (LoggerPath × Handler)) (path : LoggerPath) : List Handler :=
  (handlers.filter fun entry => entry.1.isAbove path).map Prod.snd

/-- A record reaches each handler above it once. -/
theorem reached_perm (logging : Logging) (path : LoggerPath) :
    (logging.reached path).Perm (above logging.handlers path) := by
  have hgroups := flatMap_filter_perm (fun entry : LoggerPath × Handler => entry.1)
    (nodup_upward path) logging.handlers
  simp only [mem_upward_iff, Bool.decide_eq_true] at hgroups
  have hreached : logging.reached path =
      ((upward path).flatMap fun upper => logging.handlers.filter (·.1 = upper)).map Prod.snd :=
    List.map_flatMap.symm
  rw [hreached]
  exact hgroups.map Prod.snd

/-! ## What handlers write -/

/-- What handlers, each on its logger, write of a record that was let through. -/
def writtenBy (handlers : List (LoggerPath × Handler)) (record : LogRecord) : Written :=
  ((above handlers record.path).filter (·.accepts record.rank)).map fun handler =>
    (handler.sink, record.line)

theorem writtenBy_append (others installed : List (LoggerPath × Handler)) (record : LogRecord) :
    writtenBy (others ++ installed) record =
      writtenBy others record ++ writtenBy installed record := by
  simp [writtenBy, above]

theorem writtenBy_perm (h : handlers.Perm others) (record : LogRecord) :
    (writtenBy handlers record).Perm (writtenBy others record) :=
  (((h.filter _).map _).filter _).map _

/-- A record that is let through is written by all handlers, if one of them is above it. -/
theorem emit_perm (henabled : logging.isEnabled record.path record.rank = true)
    (hsome : ∃ entry ∈ logging.handlers, entry.1.isAbove record.path = true) :
    (logging.emit record).Perm (writtenBy logging.handlers record) := by
  have hreached := reached_perm logging record.path
  have hne : logging.reached record.path ≠ [] := by
    obtain ⟨entry, hmem, habove⟩ := hsome
    have hentry : entry.2 ∈ above logging.handlers record.path :=
      List.mem_map_of_mem (List.mem_filter.mpr ⟨hmem, habove⟩)
    exact List.ne_nil_of_mem (hreached.mem_iff.mpr hentry)
  rw [emit, if_pos henabled]
  split
  · next hnil => exact absurd hnil hne
  · exact (hreached.filter _).map _

/-! ## Setups -/

/-- Logging after a row of setups. -/
def setUpAll (logging : Logging) (setups : List LoggingSetup) : Logging :=
  setups.foldl setUp logging

/-- The handlers are those of the last setup and the other ones. -/
def HasBeside (others : List (LoggerPath × Handler)) (logging : Logging) : Prop :=
  logging.handlers.Perm (others ++ logging.installed)

theorem foldl_erase_perm (h : handlers.Perm (others ++ installed)) :
    (installed.foldl (fun handlers entry => handlers.erase entry) handlers).Perm others := by
  induction installed generalizing handlers with
  | nil => simpa using h
  | cons entry installed ih =>
    refine ih ?_
    have herase := (h.trans List.perm_middle).erase entry
    rwa [List.erase_cons_head] at herase

/-- A setup leaves the other handlers as they are. -/
theorem HasBeside.setUp (h : HasBeside others logging) (setup : LoggingSetup) :
    HasBeside others (logging.setUp setup) :=
  (foldl_erase_perm h).append_right _

theorem HasBeside.setUpAll (h : HasBeside others logging) (setups : List LoggingSetup) :
    HasBeside others (logging.setUpAll setups) := by
  induction setups generalizing logging with
  | nil => exact h
  | cons setup setups ih => exact ih (h.setUp setup)

theorem installed_setUpAll (logging : Logging) (earlier : List LoggingSetup) (last : LoggingSetup) :
    (logging.setUpAll (earlier ++ [last])).installed = last.placed := by
  rw [Logging.setUpAll, List.foldl_concat]
  rfl

/-! ## What a setup writes -/

theorem rank_level_lt (setup : LoggingSetup) : setup.level.rank < Severity.warning.rank := by
  rw [LoggingSetup.level]
  split <;> decide

/-- All handlers of a setup are above the loggers that its target is above. -/
theorem above_placed {setup : LoggingSetup} (h : setup.target.isAbove path = true) :
    above setup.placed path = setup.handlers := by
  simp [above, LoggingSetup.placed, List.filter_map, Function.comp_def, h]

/-- Below the target of a setup a record is shown once if it is as serious as the setup asks, and
    not at all otherwise; and the log file has it, if there is one, if it is shown. -/
theorem writtenBy_placed {setup : LoggingSetup} (h : setup.target.isAbove record.path = true) :
    writtenBy setup.placed record =
      if setup.level.rank ≤ record.rank then
        (.ofRank record.rank, record.line) ::
          (setup.logFile?.map fun path => (Sink.file path, record.line)).toList
      else [] := by
  have hlevel : (setup.level.rank : Int) < Severity.warning.rank := by
    exact_mod_cast rank_level_lt setup
  have houtput : (Handler.mk .output setup.level (some .warning)).accepts record.rank =
      decide (setup.level.rank ≤ record.rank ∧ record.rank < Severity.warning.rank) := by
    simp [Handler.accepts, isBelow]
  have herrors : (Handler.mk .errors .warning none).accepts record.rank =
      decide (Severity.warning.rank ≤ record.rank) := by
    simp [Handler.accepts]
  have hfile (path : Text) : (Handler.mk (.file path) setup.level none).accepts record.rank =
      decide (setup.level.rank ≤ record.rank) := by
    simp [Handler.accepts]
  rw [writtenBy, above_placed h, LoggingSetup.handlers, Sink.ofRank]
  -- the output shows what is below a warning, and the errors the rest, so never both
  by_cases hleast : (setup.level.rank : Int) ≤ record.rank
  · by_cases hshown : record.rank < Severity.warning.rank
    · have hnot : ¬(Severity.warning.rank : Int) ≤ record.rank := by omega
      cases setup.logFile? <;> simp [houtput, herrors, hfile, hleast, hshown, hnot]
    · have hwarning : (Severity.warning.rank : Int) ≤ record.rank := by omega
      cases setup.logFile? <;> simp [houtput, herrors, hfile, hleast, hshown, hwarning]
  · have hnot : ¬(Severity.warning.rank : Int) ≤ record.rank := by omega
    cases setup.logFile? <;> simp [houtput, herrors, hfile, hleast, hnot]

/-! ## Repeated setups -/

/-- After any row of setups the handlers of the last one are installed, on its target, and
    besides them there are those that no setup had put there. A record below the target that is
    let through is written by those, and by the handlers of the last setup, which show it once
    if it is as serious as that setup asks, in the place for its rank, and not at all
    otherwise; a log file has what is shown. -/
theorem setUpAll_shows_once (start : Logging) (hstart : start.installed = [])
    (earlier : List LoggingSetup) (last : LoggingSetup) :
    ∃ logging, start.setUpAll (earlier ++ [last]) = logging ∧
      logging.installed = last.handlers.map (fun handler => (last.target, handler)) ∧
      logging.handlers.Perm (start.handlers ++ logging.installed) ∧
      ∀ record : LogRecord, last.target.isAbove record.path = true →
        logging.isEnabled record.path record.rank = true →
          (logging.emit record).Perm
              (writtenBy start.handlers record ++ writtenBy logging.installed record) ∧
            writtenBy logging.installed record =
              if last.level.rank ≤ record.rank then
                (.ofRank record.rank, record.line) ::
                  (last.logFile?.map fun path => (Sink.file path, record.line)).toList
              else [] := by
  have hbeside : HasBeside start.handlers start := by
    rw [HasBeside, hstart, List.append_nil]
  have hafter := hbeside.setUpAll (earlier ++ [last])
  have hinstalled := installed_setUpAll start earlier last
  generalize start.setUpAll (earlier ++ [last]) = logging at hafter hinstalled
  refine ⟨logging, rfl, hinstalled, hafter, fun record habove henabled => ?_⟩
  have hsome : ∃ entry ∈ logging.handlers, entry.1.isAbove record.path = true := by
    refine ⟨(last.target, ⟨.errors, .warning, none⟩), hafter.mem_iff.mpr ?_, habove⟩
    rw [hinstalled]
    simp [LoggingSetup.placed, LoggingSetup.handlers]
  refine ⟨?_, by rw [hinstalled, writtenBy_placed habove]⟩
  rw [← writtenBy_append]
  exact (emit_perm henabled hsome).trans (writtenBy_perm hafter record)

/-- A part of the library that was looked at closely before: its debug records are let through
    and not shown any more, and what is no warning yet is shown in the output and is in the log
    file. Another handler for warnings writes each of them besides. -/
theorem setUpAll_shows_once_closely :
    ∃ logging,
      setUpAll { handlers := [(.root, ⟨.errors, .warning, none⟩)] }
          ([⟨true, none, .ofName "tdt.engine"⟩] ++ [⟨false, some "a.log", .ofName "tdt"⟩]) =
        logging ∧
      logging.isEnabled (.ofName "tdt.engine") Severity.debug = true ∧
      (logging.emit ⟨.ofName "tdt.engine", Severity.debug, "m"⟩).Perm [] ∧
      (logging.emit ⟨.ofName "tdt.engine", 29, "m"⟩).Perm
        [(.output, "tdt.engine: Level 29: m".toList),
          (.file "a.log", "tdt.engine: Level 29: m".toList)] ∧
      (logging.emit ⟨.ofName "tdt", Severity.warning, "m"⟩).Perm
        [(.errors, "tdt: WARNING: m".toList), (.errors, "tdt: WARNING: m".toList),
          (.file "a.log", "tdt: WARNING: m".toList)] := by
  obtain ⟨logging, rfl, -, -, hall⟩ :=
    setUpAll_shows_once { handlers := [(.root, ⟨.errors, .warning, none⟩)] } rfl
      [⟨true, none, .ofName "tdt.engine"⟩] ⟨false, some "a.log", .ofName "tdt"⟩
  obtain ⟨hdebug, hnone⟩ := hall ⟨.ofName "tdt.engine", Severity.debug, "m"⟩ (by decide) (by decide)
  obtain ⟨hmiddle, hshown⟩ := hall ⟨.ofName "tdt.engine", 29, "m"⟩ (by decide) (by decide)
  obtain ⟨hwarning, hboth⟩ := hall ⟨.ofName "tdt", Severity.warning, "m"⟩ (by decide) (by decide)
  rw [hnone] at hdebug
  rw [hshown] at hmiddle
  rw [hboth] at hwarning
  exact ⟨_, rfl, by decide, hdebug, hmiddle, hwarning⟩

end Logging

end EpcTag
