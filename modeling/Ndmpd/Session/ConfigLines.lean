import Ndmpd.Foundation.CharArray
import Ndmpd.Foundation.FirstMatch
import Ndmpd.Foundation.Lines
import Mathlib.Data.List.TakeWhile

/-!
# Lines of the configuration

`setup` reads a line of the configuration file in one pass. Visible characters in front of
the first `=` are put into `key`, those behind it into `value`, and neither buffer is looked
after while they are. The key gets its NUL at the `=`: without one, what the memory held
before is read on with it. The option that is set is the first one whose name starts with
the key.

A line does what it says exactly when it fits the buffers and no other option than the one
it names comes first (`setup_configures_iff`). No name of an option starts with another
name, so that this can only fail for an abbreviation or without a `=`.
-/

namespace Ndmpd

open Foundation

/-- The options of `ndmpd_cfg_table` with their first values. -/
def optionDefaults : List (List UInt8 × List UInt8) :=
  [("listen-nic", ""), ("serve-nic", ""), ("dump-pathnode", "true"), ("tar-pathnode", "true"),
    ("fh-inode", "true"), ("ignore-ctime", "false"), ("include-lmtime", "false"),
    ("version", "4"), ("restore-fullpath", "false"), ("debug-path", "/var/log/ndmp"),
    ("plugin-path", "/var/log/ndmp"), ("socket-css", "65"), ("socket-crs", "80"),
    ("mover-recordsize", "60"), ("restore-wildcard-enable", "false"), ("cram-md5-username", ""),
    ("cram-md5-password", ""), ("cleartext-username", ""), ("cleartext-password", ""),
    ("tcp-port", "10000"), ("backup-quarantine", "false"), ("restore-quarantine", "false"),
    ("overwrite-quarantine", "false")].map
      fun option => (option.1.toUTF8.toList, option.2.toUTF8.toList)

/-- The names of the options. -/
def optionNames : List (List UInt8) := optionDefaults.map Prod.fst

/-- A `ndmpd_cfg_param_t`. -/
structure NdmpdCfgParam where
  name : List UInt8
  value : CharArray 65
  deriving DecidableEq, Repr

/-- `strncpy(cfg->value, value, 64+1)`, which fills the value up with zeros. -/
def NdmpdCfgParam.copyValue (value : List UInt8) (cfg : NdmpdCfgParam) : NdmpdCfgParam :=
  { cfg with value := .ofString _ value }

theorem NdmpdCfgParam.name_copyValue (value : List UInt8) (cfg : NdmpdCfgParam) :
    (cfg.copyValue value).name = cfg.name := rfl

theorem NdmpdCfgParam.copyValue_eq_self_iff {value : List UInt8} {cfg : NdmpdCfgParam} :
    cfg.copyValue value = cfg ↔ cfg.value = .ofString _ value := by
  constructor
  · intro same
    exact (congrArg NdmpdCfgParam.value same).symm
  · intro same
    unfold copyValue
    rw [← same]

/-- A state of `ndmpd_cfg_table`. The names in it never change. -/
@[ext]
structure CfgTable where
  params : List NdmpdCfgParam
  names : params.map NdmpdCfgParam.name = optionNames
  deriving DecidableEq, Repr

/-- `ndmpd_cfg_table` before a configuration has been loaded. -/
def ndmpdCfgTable : CfgTable where
  params := optionDefaults.map fun option => ⟨option.1, .ofString _ option.2⟩
  names := List.map_map

/-- A line as `fgets(3)` returns it: a string with at most one newline, which is its last
character. It is short enough to be indexed by an `int`. -/
structure InputLine where
  text : List UInt8
  nulFree : NulFree text
  newline_last : newline ∉ text.dropLast
  length_lt : text.length < 2 ^ 31
  deriving DecidableEq, Repr

namespace Config

/-- What the local arrays of `setup` hold when it is called, and what stands in the memory
behind `key`. -/
structure Stack where
  key : CharArray 64
  value : CharArray 65
  behind : List UInt8
  deriving DecidableEq, Repr

/-- The local variables of `setup`, and whether something was written outside of `key` and
`value`. -/
structure SetupVars where
  key : CharArray 64
  value : CharArray 65
  ki : Nat
  vi : Nat
  iskey : Bool
  outside : Bool
  deriving DecidableEq, Repr

/-- The characters that are not left out. A `char` above 127 is negative. -/
def visible (c : UInt8) : Bool := !(c < 33 || 126 < c)

/-- `tolower(3)`. -/
def tolower (c : UInt8) : UInt8 := if 65 ≤ c ∧ c ≤ 90 then c + 32 else c

/-- `#`. -/
abbrev hashSign : UInt8 := 35

/-- `=`. -/
abbrev equalsSign : UInt8 := 61

namespace SetupVars

variable (vars : SetupVars)

/-- `key[ki++] = c`. -/
def putKey (c : UInt8) : SetupVars :=
  { vars with
    key := vars.key.write vars.ki [c]
    ki := vars.ki + 1
    outside := vars.outside || 64 ≤ vars.ki }

/-- `value[vi++] = c`. -/
def putValue (c : UInt8) : SetupVars :=
  { vars with
    value := vars.value.write vars.vi [c]
    vi := vars.vi + 1
    outside := vars.outside || 65 ≤ vars.vi }

/-- The body of the loop, for a character that is visible. -/
def take (c : UInt8) : SetupVars :=
  if c = equalsSign ∧ vars.iskey = true then { vars.putKey 0 with iskey := false }
  else if vars.iskey then vars.putKey (tolower c)
  else vars.putValue c

/-- The body of the loop. -/
def scan (c : UInt8) : SetupVars := if visible c then vars.take c else vars

end SetupVars

/-- The variables in front of the loop. -/
def Stack.vars (stack : Stack) : SetupVars where
  key := stack.key
  value := stack.value
  ki := 0
  vi := 0
  iskey := true
  outside := false

/-- `!strncmp(cfg->name, key, strlen(key))`. -/
def NamedBy (key : List UInt8) (cfg : NdmpdCfgParam) : Bool := key.isPrefixOf cfg.name

end Config

namespace CfgTable

variable (table : CfgTable)

/-- The last loop of `setup`. -/
def assign (key value : List UInt8) : CfgTable where
  params := updateFirst (Config.NamedBy key) (NdmpdCfgParam.copyValue value) table.params
  names := (map_updateFirst (NdmpdCfgParam.name_copyValue value)).trans table.names

end CfgTable

namespace Config

/-- The table after `setup`, and whether something was written outside of `key` and
`value`. -/
@[ext]
structure SetupOutcome where
  table : CfgTable
  outside : Bool
  deriving DecidableEq, Repr

/-- A line that `setup` returns from at once. -/
def Skipped (line : List UInt8) : Prop :=
  line = [] ∨ line.head? = some hashSign ∨ line.head? = some newline

instance (line : List UInt8) : Decidable (Skipped line) := inferInstanceAs (Decidable (_ ∨ _))

/-- `setup`. -/
def setup (stack : Stack) (table : CfgTable) (line : List UInt8) : SetupOutcome :=
  if Skipped line then ⟨table, false⟩
  else
    let vars := line.foldl SetupVars.scan stack.vars
    let value := vars.value.write vars.vi [0]
    let outside := vars.outside || 65 ≤ vars.vi
    if 64 < vars.vi then ⟨table, outside⟩
    else ⟨table.assign (cstring (vars.key.bytes ++ stack.behind)) value.string, outside⟩

/-! ## What a line says -/

/-- The line without blanks and control characters. -/
def kept (line : List UInt8) : List UInt8 := line.filter visible

/-- The key of a line, in small letters. -/
def lineKey (line : List UInt8) : List UInt8 :=
  ((kept line).takeWhile (· ≠ equalsSign)).map tolower

/-- What a line gives for a value. -/
def lineValue (line : List UInt8) : List UInt8 := ((kept line).dropWhile (· ≠ equalsSign)).tail

end Config

/-- The table after a line has been obeyed: the option with just the name of the key has got
the value. -/
def CfgTable.obey (table : CfgTable) (line : List UInt8) : CfgTable where
  params := table.params.map fun cfg =>
    if Config.equalsSign ∈ Config.kept line ∧ (Config.lineValue line).length ≤ 64 ∧
        cfg.name = Config.lineKey line then cfg.copyValue (Config.lineValue line)
    else cfg
  names := by
    rw [← table.names, List.map_map]
    apply List.map_congr_left
    intro cfg _
    rw [Function.comp_apply]
    split <;> rfl

namespace Config

/-- Nothing is written outside of the buffers, and the line is obeyed. -/
def Configures (stack : Stack) (table : CfgTable) (line : List UInt8) : Prop :=
  setup stack table line = ⟨table.obey line, false⟩

instance (stack : Stack) (table : CfgTable) (line : List UInt8) :
    Decidable (Configures stack table line) := inferInstanceAs (Decidable (_ = _))

/-- A line with a `=` that fits the buffers. If its key does not name an option in full, the
first option that it abbreviates has the value already. -/
structure Names (table : CfgTable) (line : List UInt8) : Prop where
  assigns : equalsSign ∈ kept line
  key_length : (lineKey line).length ≤ 63
  value_length : (lineValue line).length ≤ 64
  first : ∀ cfg, table.params.find? (NamedBy (lineKey line)) = some cfg →
    cfg.name = lineKey line ∨ cfg.value = .ofString _ (lineValue line)

/-- What is taken for the key of a line without a `=`. -/
def staleKey (stack : Stack) (line : List UInt8) : List UInt8 :=
  cstring ((kept line).map tolower ++ (stack.key.bytes.drop (kept line).length ++ stack.behind))

/-- A line without a `=` that fits the buffer. The first option that it abbreviates, together
with what the buffer held, has no value. -/
structure Unassigning (stack : Stack) (table : CfgTable) (line : List UInt8) : Prop where
  no_sign : equalsSign ∉ kept line
  key_length : (kept line).length ≤ 64
  first : ∀ cfg, table.params.find? (NamedBy (staleKey stack line)) = some cfg →
    cfg.value = .ofString _ []

/-! ## The pass over a line -/

/-- The first part of the pass: the keys of some characters have been put. -/
structure PutsKey (start vars : SetupVars) (text : List UInt8) : Prop where
  iskey : vars.iskey = true
  ki : vars.ki = text.length
  vi : vars.vi = 0
  value : vars.value = start.value
  outside : vars.outside = decide (64 < text.length)
  key : text.length ≤ 64 → vars.key.Begun start.key (text.map tolower)

theorem PutsKey.step {start vars : SetupVars} {text : List UInt8} (puts : PutsKey start vars text)
    {c : UInt8} (other : c ≠ equalsSign) : PutsKey start (vars.take c) (text ++ [c]) := by
  have longer : (text ++ [c]).length = text.length + 1 := by
    rw [List.length_append, List.length_singleton]
  unfold SetupVars.take
  rw [if_neg fun both => other both.1, if_pos puts.iskey]
  refine ⟨puts.iskey, ?_, puts.vi, puts.value, ?_, ?_⟩
  · rw [longer, ← puts.ki]
    rfl
  · change (vars.outside || decide (64 ≤ vars.ki)) = _
    rw [puts.outside, puts.ki, longer, ← Bool.decide_or]
    exact decide_eq_decide.mpr (by omega)
  · intro fits
    rw [longer] at fits
    have begun := puts.key (by omega)
    have next := begun.write (by rw [List.length_map]; omega) (tolower c)
    rw [List.length_map, ← puts.ki] at next
    rw [List.map_append]
    exact next

theorem PutsKey.run {start vars : SetupVars} {text : List UInt8} (puts : PutsKey start vars text)
    {more : List UInt8} (others : equalsSign ∉ more) :
    PutsKey start (more.foldl SetupVars.take vars) (text ++ more) := by
  induction more generalizing vars text with
  | nil => rwa [List.append_nil]
  | cons c more ih =>
      rw [List.mem_cons, not_or] at others
      have next := ih (puts.step (Ne.symm others.1)) others.2
      rwa [List.append_assoc, List.singleton_append] at next

/-- The second part of the pass: the key is complete, and some characters of the value have
been put. -/
structure PutsValue (start vars : SetupVars) (before text : List UInt8) : Prop where
  iskey : vars.iskey = false
  vi : vars.vi = text.length
  outside : vars.outside = decide (63 < before.length ∨ 65 < text.length)
  key : before.length ≤ 63 → vars.key.Begun start.key (before.map tolower ++ [0])
  value : text.length ≤ 65 → vars.value.Begun start.value text

/-- The first `=` ends the key. -/
theorem PutsKey.sign {start vars : SetupVars} {before : List UInt8}
    (puts : PutsKey start vars before) : PutsValue start (vars.take equalsSign) before [] := by
  unfold SetupVars.take
  rw [if_pos ⟨rfl, puts.iskey⟩]
  refine ⟨rfl, puts.vi, ?_, ?_, ?_⟩
  · change (vars.outside || decide (64 ≤ vars.ki)) = _
    rw [puts.outside, puts.ki, ← Bool.decide_or, List.length_nil]
    exact decide_eq_decide.mpr (by omega)
  · intro fits
    have next := (puts.key (by omega)).write (by rw [List.length_map]; omega) 0
    rw [List.length_map, ← puts.ki] at next
    exact next
  · intro _
    change vars.value.Begun start.value []
    rw [puts.value]
    exact CharArray.begun_nil _

theorem PutsValue.step {start vars : SetupVars} {before text : List UInt8}
    (puts : PutsValue start vars before text) (c : UInt8) :
    PutsValue start (vars.take c) before (text ++ [c]) := by
  have longer : (text ++ [c]).length = text.length + 1 := by
    rw [List.length_append, List.length_singleton]
  have later : ¬ vars.iskey = true := by
    rw [puts.iskey]
    exact Bool.false_ne_true
  unfold SetupVars.take
  rw [if_neg fun both => later both.2, if_neg later]
  refine ⟨puts.iskey, ?_, ?_, puts.key, ?_⟩
  · rw [longer, ← puts.vi]
    rfl
  · change (vars.outside || decide (65 ≤ vars.vi)) = _
    rw [puts.outside, puts.vi, longer, ← Bool.decide_or]
    exact decide_eq_decide.mpr (by omega)
  · intro fits
    rw [longer] at fits
    have next := (puts.value (by omega)).write (by omega) c
    rw [← puts.vi] at next
    exact next

theorem PutsValue.run {start vars : SetupVars} {before text : List UInt8}
    (puts : PutsValue start vars before text) (more : List UInt8) :
    PutsValue start (more.foldl SetupVars.take vars) before (text ++ more) := by
  induction more generalizing vars text with
  | nil => rwa [List.append_nil]
  | cons c more ih =>
      have next := ih (puts.step c)
      rwa [List.append_assoc, List.singleton_append] at next

theorem foldl_scan (line : List UInt8) (vars : SetupVars) :
    line.foldl SetupVars.scan vars = (kept line).foldl SetupVars.take vars := by
  rw [kept, List.foldl_filter]
  rfl

theorem putsKey_nil (vars : SetupVars) (iskey : vars.iskey = true) (ki : vars.ki = 0)
    (vi : vars.vi = 0) (inside : vars.outside = false) : PutsKey vars vars [] :=
  ⟨iskey, ki, vi, rfl, inside, fun _ => CharArray.begun_nil _⟩

/-- The line at its first `=`. -/
theorem kept_split {line : List UInt8} (signed : equalsSign ∈ kept line) : ∃ before,
    kept line = before ++ equalsSign :: lineValue line ∧ equalsSign ∉ before ∧
      lineKey line = before.map tolower := by
  obtain ⟨before, after, split, first⟩ := List.eq_append_cons_of_mem signed
  have run : ∀ c ∈ before, decide (c ≠ equalsSign) = true := by
    intro c listed
    rw [decide_eq_true_eq]
    rintro rfl
    exact first listed
  have key : lineKey line = before.map tolower := by
    rw [lineKey, split, List.takeWhile_append_of_pos run, List.takeWhile_cons_of_neg (by simp),
      List.append_nil]
  have value : lineValue line = after := by
    rw [lineValue, split, List.dropWhile_append_of_pos run, List.dropWhile_cons_of_neg (by simp),
      List.tail_cons]
  exact ⟨before, by rw [split, value], first, key⟩

/-- The pass over a line with a `=`. -/
theorem putsValue_line (stack : Stack) {line before after : List UInt8}
    (split : kept line = before ++ equalsSign :: after) (first : equalsSign ∉ before) :
    PutsValue stack.vars (line.foldl SetupVars.scan stack.vars) before after := by
  have front := (putsKey_nil stack.vars rfl rfl rfl rfl).run first
  have whole := front.sign.run after
  rw [foldl_scan, split, List.foldl_append, List.foldl_cons]
  exact whole

/-- The pass over a line without a `=`. -/
theorem putsKey_line (stack : Stack) {line : List UInt8} (unsigned : equalsSign ∉ kept line) :
    PutsKey stack.vars (line.foldl SetupVars.scan stack.vars) (kept line) := by
  rw [foldl_scan]
  exact (putsKey_nil stack.vars rfl rfl rfl rfl).run unsigned

theorem tolower_ne_zero {c : UInt8} (nonzero : c ≠ 0) : tolower c ≠ 0 := by
  unfold tolower
  split
  · rename_i capital
    intro zero
    have low := UInt8.le_iff_toNat_le.mp capital.1
    have high := UInt8.le_iff_toNat_le.mp capital.2
    have value := congrArg UInt8.toNat zero
    rw [UInt8.toNat_add] at value
    simp at low high value
    omega
  · exact nonzero

theorem ne_zero_of_kept {line : List UInt8} {c : UInt8} (listed : c ∈ kept line) : c ≠ 0 := by
  rintro rfl
  have isVisible := (List.mem_filter.mp listed).2
  exact absurd isVisible (by decide)

theorem nulFree_tolower {text : List UInt8} (nonzero : ∀ c ∈ text, c ≠ 0) :
    NulFree (text.map tolower) := by
  intro listed
  obtain ⟨c, member, zero⟩ := List.mem_map.mp listed
  exact tolower_ne_zero (nonzero c member) zero

theorem nulFree_lineValue (line : List UInt8) : NulFree (lineValue line) := by
  intro listed
  have member := (List.dropWhile_sublist _).subset (List.mem_of_mem_tail listed)
  exact ne_zero_of_kept member rfl

/-! ## The outcome of a line -/

theorem setup_skipped (stack : Stack) (table : CfgTable) {line : List UInt8}
    (skipped : Skipped line) : setup stack table line = ⟨table, false⟩ := if_pos skipped

variable {stack : Stack} {table : CfgTable} {line : List UInt8}

/-- A line with a `=` that does not fit the buffers. -/
theorem setup_outside (ordinary : ¬ Skipped line) (signed : equalsSign ∈ kept line)
    (long : 63 < (lineKey line).length ∨ 64 < (lineValue line).length) :
    (setup stack table line).outside = true := by
  obtain ⟨before, split, first, key⟩ := kept_split signed
  rw [key, List.length_map] at long
  have puts := putsValue_line stack split first
  have outside : ((line.foldl SetupVars.scan stack.vars).outside ||
      decide (65 ≤ (line.foldl SetupVars.scan stack.vars).vi)) = true := by
    rw [puts.outside, puts.vi, ← Bool.decide_or, decide_eq_true_eq]
    omega
  unfold setup
  rw [if_neg ordinary]
  dsimp only
  split
  · exact outside
  · exact outside

/-- A line with a `=` that fits the buffers. -/
theorem setup_signed (ordinary : ¬ Skipped line) (signed : equalsSign ∈ kept line)
    (keyFits : (lineKey line).length ≤ 63) (valueFits : (lineValue line).length ≤ 64) :
    setup stack table line = ⟨table.assign (lineKey line) (lineValue line), false⟩ := by
  obtain ⟨before, split, first, key⟩ := kept_split signed
  have nonzero : ∀ c ∈ before, c ≠ 0 := by
    intro c listed
    exact ne_zero_of_kept (split ▸ List.mem_append_left _ listed)
  rw [key, List.length_map] at keyFits
  have puts := putsValue_line stack split first
  have keyRead := (puts.key keyFits).string (nulFree_tolower nonzero) stack.behind
  have ended := (puts.value (by omega)).write (by omega) 0
  have valueRead := ended.string (nulFree_lineValue line) []
  rw [List.append_nil, ← puts.vi] at valueRead
  unfold setup
  rw [if_neg ordinary]
  dsimp only
  rw [if_neg (by rw [puts.vi]; omega), puts.outside, keyRead, CharArray.string, valueRead, puts.vi,
    key, ← Bool.decide_or, decide_eq_false (by omega)]

/-- A line without a `=`. -/
theorem setup_unsigned (ordinary : ¬ Skipped line) (unsigned : equalsSign ∉ kept line) :
    (setup stack table line).outside = decide (64 < (kept line).length) ∧
      ((kept line).length ≤ 64 →
        (setup stack table line).table = table.assign (staleKey stack line) []) := by
  have puts := putsKey_line stack unsigned
  have valueRead : ((line.foldl SetupVars.scan stack.vars).value.write
      (line.foldl SetupVars.scan stack.vars).vi [0]).string = [] := by
    rw [puts.vi]
    exact CharArray.string_write_nul (by decide)
  unfold setup
  rw [if_neg ordinary]
  dsimp only
  rw [if_neg (by rw [puts.vi]; decide), valueRead, puts.vi, puts.outside]
  refine ⟨Bool.or_false _, ?_⟩
  intro fits
  have key := puts.key fits
  unfold CharArray.Begun at key
  rw [key, List.length_map, List.append_assoc]
  rfl

/-! ## Obeying a line -/

theorem optionNames_nodup : optionNames.Nodup := by
  decide +kernel

/-- No name starts with another one. -/
theorem optionNames_abbreviate : ∀ name ∈ optionNames, ∀ other ∈ optionNames,
    name.isPrefixOf other = true → name = other := by
  decide +kernel

theorem optionNames_visible : ∀ name ∈ optionNames, name.head? ≠ some hashSign := by
  decide +kernel

theorem mem_optionNames {cfg : NdmpdCfgParam} (listed : cfg ∈ table.params) :
    cfg.name ∈ optionNames := by
  rw [← table.names]
  exact List.mem_map_of_mem listed

/-- A line that names no option changes nothing. -/
theorem obey_eq_self (silent : ∀ cfg ∈ table.params,
    ¬ (equalsSign ∈ kept line ∧ (lineValue line).length ≤ 64 ∧ cfg.name = lineKey line)) :
    table.obey line = table := by
  have same : ∀ cfg ∈ table.params, (if equalsSign ∈ kept line ∧
      (lineValue line).length ≤ 64 ∧ cfg.name = lineKey line then
        cfg.copyValue (lineValue line) else cfg) = id cfg :=
    fun cfg listed => if_neg (silent cfg listed)
  exact CfgTable.ext ((List.map_congr_left same).trans (List.map_id _))

theorem obey_unsigned (unsigned : equalsSign ∉ kept line) : table.obey line = table :=
  obey_eq_self fun _ _ named => unsigned named.1

/-- A line that is skipped says nothing. -/
theorem obey_skipped {line : InputLine} (skipped : Skipped line.text) :
    table.obey line.text = table := by
  rcases skipped with empty | hash | ends
  · rw [empty]
    exact obey_unsigned List.not_mem_nil
  · apply obey_eq_self
    intro cfg listed named
    obtain ⟨rest, text⟩ := List.head?_eq_some_iff.mp hash
    have keptText : kept line.text = hashSign :: kept rest := by
      rw [text]
      rfl
    have key : (lineKey line.text).head? = some hashSign := by
      rw [lineKey, keptText]
      rfl
    rw [← named.2.2] at key
    exact optionNames_visible _ (mem_optionNames listed) key
  · obtain ⟨rest, text⟩ := List.head?_eq_some_iff.mp ends
    have last := line.newline_last
    cases rest with
    | nil =>
        rw [text]
        exact obey_unsigned List.not_mem_nil
    | cons c rest =>
        rw [text] at last
        exact absurd List.mem_cons_self last

/-- Assigning changes nothing exactly if the first option that starts so has the value. -/
theorem assign_eq_self_iff {key value : List UInt8} : table.assign key value = table ↔
    ∀ cfg, table.params.find? (NamedBy key) = some cfg → cfg.value = .ofString _ value := by
  rw [CfgTable.ext_iff]
  refine updateFirst_eq_self_iff.trans ?_
  refine forall_congr' fun cfg => ?_
  rw [NdmpdCfgParam.copyValue_eq_self_iff]

theorem namedBy_self (cfg : NdmpdCfgParam) : NamedBy cfg.name cfg = true :=
  List.isPrefixOf_iff_prefix.mpr List.prefix_rfl

/-- The first option that starts with the key is the one that is named, if one is. -/
theorem name_of_find? {key : List UInt8} {cfg other : NdmpdCfgParam}
    (found : table.params.find? (NamedBy key) = some cfg) (listed : other ∈ table.params)
    (named : other.name = key) : cfg.name = key := by
  have starts : NamedBy key cfg = true := List.find?_some found
  have member := mem_optionNames (List.mem_of_find?_eq_some found)
  have option := mem_optionNames listed
  rw [named] at option
  exact (optionNames_abbreviate key option cfg.name member starts).symm

/-- Assigning obeys the line exactly if no other option comes first. -/
theorem assign_eq_obey_iff (signed : equalsSign ∈ kept line)
    (fits : (lineValue line).length ≤ 64) :
    table.assign (lineKey line) (lineValue line) = table.obey line ↔
      ∀ cfg, table.params.find? (NamedBy (lineKey line)) = some cfg →
        cfg.name = lineKey line ∨ cfg.value = .ofString _ (lineValue line) := by
  by_cases known : ∃ other ∈ table.params, other.name = lineKey line
  · obtain ⟨other, listed, named⟩ := known
    have exact_match : ∀ cfg, table.params.find? (NamedBy (lineKey line)) = some cfg →
        cfg.name = lineKey line := fun cfg found => name_of_find? found listed named
    refine iff_of_true ?_ fun cfg found => .inl (exact_match cfg found)
    apply CfgTable.ext
    have once : table.params.Pairwise fun first second =>
        ¬ (first.name = lineKey line ∧ second.name = lineKey line) := by
      have distinct : (table.params.map NdmpdCfgParam.name).Pairwise (· ≠ ·) := by
        rw [table.names]
        exact optionNames_nodup
      exact (List.pairwise_map.mp distinct).imp fun different both =>
        different (both.1.trans both.2.symm)
    have starts : ∀ cfg : NdmpdCfgParam, cfg.name = lineKey line →
        NamedBy (lineKey line) cfg = true := by
      intro cfg same
      rw [← same]
      exact namedBy_self cfg
    refine (updateFirst_eq_map starts exact_match once).trans ?_
    apply List.map_congr_left
    intro cfg _
    exact if_congr ⟨fun same => ⟨signed, fits, same⟩, fun all => all.2.2⟩ rfl rfl
  · have silent : table.obey line = table := by
      apply obey_eq_self
      intro cfg listed named
      exact known ⟨cfg, listed, named.2.2⟩
    rw [silent, assign_eq_self_iff]
    refine forall_congr' fun cfg => ?_
    constructor
    · intro same found
      exact .inr (same found)
    · intro either found
      rcases either found with named | same
      · exact absurd ⟨cfg, List.mem_of_find?_eq_some found, named⟩ known
      · exact same

/-- The lines that `setup` obeys. -/
def Meant (stack : Stack) (table : CfgTable) (line : List UInt8) : Prop :=
  Skipped line ∨ Names table line ∨ Unassigning stack table line

/-- A line with a `=` is obeyed exactly if it fits and names its option. -/
theorem configures_signed_iff (ordinary : ¬ Skipped line) (signed : equalsSign ∈ kept line) :
    Configures stack table line ↔ Names table line := by
  by_cases long : 63 < (lineKey line).length ∨ 64 < (lineValue line).length
  · refine iff_of_false ?_ ?_
    · intro configures
      have outside := @setup_outside stack table line ordinary signed long
      rw [configures] at outside
      exact Bool.false_ne_true outside
    · intro names
      have keyFits := names.key_length
      have valueFits := names.value_length
      omega
  · rw [not_or, Nat.not_lt, Nat.not_lt] at long
    unfold Configures
    rw [setup_signed ordinary signed long.1 long.2, SetupOutcome.mk.injEq,
      assign_eq_obey_iff signed long.2]
    constructor
    · rintro ⟨first, -⟩
      exact ⟨signed, long.1, long.2, first⟩
    · intro names
      exact ⟨names.first, rfl⟩

/-- A line without a `=` is obeyed exactly if it fits and nothing is assigned. -/
theorem configures_unsigned_iff (ordinary : ¬ Skipped line) (unsigned : equalsSign ∉ kept line) :
    Configures stack table line ↔ Unassigning stack table line := by
  obtain ⟨outside, assigned⟩ := @setup_unsigned stack table line ordinary unsigned
  have silent := @obey_unsigned table line unsigned
  constructor
  · intro configures
    rw [configures] at outside assigned
    have fits : (kept line).length ≤ 64 := Nat.not_lt.mp (of_decide_eq_false outside.symm)
    have same := (assigned fits).symm
    dsimp only at same
    rw [silent] at same
    exact ⟨unsigned, fits, assign_eq_self_iff.mp same⟩
  · intro meant
    have same := assigned meant.key_length
    rw [assign_eq_self_iff.mpr meant.first] at same
    rw [decide_eq_false (Nat.not_lt.mpr meant.key_length)] at outside
    exact SetupOutcome.ext (same.trans silent.symm) outside

theorem configures_skipped {line : InputLine} (skipped : Skipped line.text) :
    Configures stack table line.text := by
  unfold Configures
  rw [setup_skipped stack table skipped, obey_skipped skipped]

theorem Meant.configures {line : InputLine} (meant : Meant stack table line.text) :
    Configures stack table line.text := by
  by_cases skipped : Skipped line.text
  · exact configures_skipped skipped
  · rcases meant with early | names | unassigning
    · exact absurd early skipped
    · exact (configures_signed_iff skipped names.assigns).mpr names
    · exact (configures_unsigned_iff skipped unassigning.no_sign).mpr unassigning

end Config

/-- A line sets exactly the option it names, inside of the buffers, exactly if it is meant
so. -/
theorem setup_configures_iff (stack : Config.Stack) (table : CfgTable) (line : InputLine) :
    Config.Configures stack table line.text ↔ Config.Meant stack table line.text := by
  refine ⟨?_, Config.Meant.configures⟩
  intro configures
  by_cases skipped : Config.Skipped line.text
  · exact .inl skipped
  · by_cases signed : Config.equalsSign ∈ Config.kept line.text
    · exact .inr (.inl ((Config.configures_signed_iff skipped signed).mp configures))
    · exact .inr (.inr ((Config.configures_unsigned_iff skipped signed).mp configures))

namespace Config

/-- Local arrays that hold nothing but zeros. -/
def zeroStack : Stack := ⟨.zero _, .zero _, []⟩

/-- The line `v=3`. -/
def shortVersion : InputLine := ⟨[118, 61, 51], by decide, by decide, by decide⟩

/-- A line whose key has 64 characters. -/
def longKey : InputLine :=
  ⟨List.replicate 64 97 ++ [61, 51], by decide +kernel, by decide +kernel, by decide +kernel⟩

end Config

/-- `v=3` sets the option `version`, and a key of 64 characters is ended behind its buffer. -/
theorem setup_disobeys :
    ¬ Config.Configures Config.zeroStack ndmpdCfgTable Config.shortVersion.text ∧
      (Config.setup Config.zeroStack ndmpdCfgTable Config.longKey.text).outside = true := by
  decide +kernel

/-! ## The configuration file -/

namespace Config

/-- All but the last character of the front of a text are so in the text. -/
theorem mem_dropLast_of_isFront {xs ys : List UInt8} (front : xs <+: ys) {c : UInt8}
    (listed : c ∈ xs.dropLast) : c ∈ ys.dropLast := by
  obtain ⟨rest, rfl⟩ := front
  by_cases whole : rest = []
  · rwa [whole, List.append_nil]
  · rw [List.dropLast_append_of_ne_nil whole]
    exact List.mem_append_left _ (List.dropLast_subset xs listed)

theorem cstring_isFront (memory : List UInt8) : cstring memory <+: memory :=
  List.takeWhile_prefix _

/-- The string that `fgets(3)` has read into `str[128]`. -/
def nextLine (fp : List UInt8) : InputLine where
  text := cstring (takeLine 127 fp).1
  nulFree := by
    intro listed
    have other := List.mem_takeWhile_imp listed
    simp at other
  newline_last := by
    intro listed
    exact newline_notMem_dropLast_takeLine 127 fp
      (mem_dropLast_of_isFront (cstring_isFront _) listed)
  length_lt := by
    have short := length_takeLine_le 127 fp
    have front := (cstring_isFront (takeLine 127 fp).1).length_le
    omega

/-- The lines that `ndmpd_load_prop` reads from a file. -/
def inputLines (fp : List UInt8) : List InputLine :=
  if fp = [] then [] else nextLine fp :: inputLines (takeLine 127 fp).2
termination_by fp.length
decreasing_by
  have parts := congrArg List.length (takeLine_append 127 fp)
  have taken := List.length_pos_iff.mpr (takeLine_ne_nil (show 0 < 127 by decide) ‹fp ≠ []›)
  rw [List.length_append] at parts
  omega

/-- The loop of `ndmpd_load_prop`. The local arrays of `setup` hold something else in every
call. -/
def loadLines (locals : Nat → Stack) : Nat → SetupOutcome → List InputLine → SetupOutcome
  | _, outcome, [] => outcome
  | call, outcome, line :: lines =>
      let next := setup (locals call) outcome.table line.text
      loadLines locals (call + 1) ⟨next.table, outcome.outside || next.outside⟩ lines

/-- Every line is meant, in the table that the lines before it ask for. -/
def AllMeant (locals : Nat → Stack) : Nat → CfgTable → List InputLine → Prop
  | _, _, [] => True
  | call, table, line :: lines =>
      Meant (locals call) table line.text ∧
        AllMeant locals (call + 1) (table.obey line.text) lines

/-- Lines that are all meant are obeyed one after the other. -/
theorem loadLines_eq {locals : Nat → Stack} {call : Nat} {table : CfgTable}
    {lines : List InputLine} (meant : AllMeant locals call table lines) :
    loadLines locals call ⟨table, false⟩ lines =
      ⟨lines.foldl (fun table line => table.obey line.text) table, false⟩ := by
  induction lines generalizing call table with
  | nil => rfl
  | cons line lines ih =>
      have configures := meant.1.configures
      unfold Configures at configures
      rw [loadLines, configures, List.foldl_cons]
      exact ih meant.2

end Config

/-- `ndmpd_load_prop`, on a file that may not be there. -/
def ndmpdLoadProp (locals : Nat → Config.Stack) (table : CfgTable) :
    Option (List UInt8) → Config.SetupOutcome × Int
  | none => (⟨table, false⟩, 1)
  | some fp => (Config.loadLines locals 0 ⟨table, false⟩ (Config.inputLines fp), 0)

/-- A configuration of lines that are all meant is obeyed as a whole. -/
theorem ndmpdLoadProp_obeys {locals : Nat → Config.Stack} {table : CfgTable} {fp : List UInt8}
    (meant : Config.AllMeant locals 0 table (Config.inputLines fp)) :
    ndmpdLoadProp locals table (some fp) =
      (⟨(Config.inputLines fp).foldl (fun table line => table.obey line.text) table, false⟩, 0) :=
  congrArg (·, 0) (Config.loadLines_eq meant)

end Ndmpd
