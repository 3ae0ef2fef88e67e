import Abacus.Proofs.LogLevel
import Abacus.Proofs.Trimming

/-!
# Settings in normal form

Fields are accepted just when every setting takes the value that is given for it and no history file
is asked for in the home of a user whom nobody can ask for (`exists_ofFields_iff`). The settings
that they give are in normal form: the level is one of five, and there is a path for the history,
which is not empty, or none at all. Given as fields again they stay as they are, if homes are
absolute and have no blank at their ends (`AreHomes`), since a path that was expanded is then
absolute and has no blank to cut. `normal_form` puts all of it together.
-/
namespace Abacus

/-! ## Values that are accepted -/

/-- The names of the levels. -/
def levelNames : List String := ["CRITICAL", "ERROR", "WARNING", "INFO", "DEBUG"]

/-- A value is one that a setting takes: it gives a text, which names a level if one is asked for,
or it is nothing, for the history file. -/
inductive Setting.Takes : Setting → Value → Prop
  | prompt {v : Value} {text : Wide} (h : v.text? = some text) : Takes .prompt v
  | noHistory : Takes .historyFile .null
  | historyFile {v : Value} {text : Wide} (h : v.text? = some text) : Takes .historyFile v
  | logLevel {v : Value} {text : Wide} (h : v.text? = some text) {name : String}
    (hname : name ∈ levelNames) (hlevel : Settings.levelText text = name) : Takes .logLevel v

/-- A path starts in the home of a user whom nobody can ask for, as there is a null character in the
name or what has no bytes. -/
def NamesImpossible (path : Wide) : Prop :=
  ∃ name behind : Wide, path = .char '~' :: (name ++ behind) ∧ .char '/' ∉ name ∧
    (.char '\x00' ∈ name ∨ ∃ c ∈ name, c.hasBytes = false)

/-- A history file is asked for in the home of a user whom nobody can ask for. -/
inductive Setting.AsksForImpossible : Setting → Value → Prop
  | historyFile {v : Value} {text : Wide} (h : v.text? = some text)
    (hnames : NamesImpossible text.trim) : AsksForImpossible .historyFile v

theorem mem_levelNames_iff {name : String} :
    name ∈ levelNames ↔ ∃ level : Level, name = level.name := by
  constructor
  · intro h
    simp only [levelNames, List.mem_cons, List.not_mem_nil, or_false] at h
    rcases h with rfl | rfl | rfl | rfl | rfl
    exacts [⟨.critical, rfl⟩, ⟨.error, rfl⟩, ⟨.warning, rfl⟩, ⟨.info, rfl⟩, ⟨.debug, rfl⟩]
  · rintro ⟨level, rfl⟩
    cases level <;> decide

/-- The user whom a path names is all that stands before the first slash. -/
theorem namesImpossible_iff {rest : Wide} :
    NamesImpossible (.char '~' :: rest) ↔
      .char '\x00' ∈ rest.takeWhile (· != .char '/') ∨
        ∃ c ∈ rest.takeWhile (· != .char '/'), c.hasBytes = false := by
  constructor
  · rintro ⟨name, behind, heq, hslash, himpossible⟩
    obtain rfl := (List.cons.inj heq).2
    have hname : ∀ c ∈ name, (c != .char '/') = true := by
      intro c hc
      simpa using fun h : c = .char '/' => hslash (h ▸ hc)
    rw [List.takeWhile_append_of_pos hname]
    exact himpossible.imp (List.mem_append_left _) fun ⟨c, hc, hbytes⟩ =>
      ⟨c, List.mem_append_left _ hc, hbytes⟩
  · intro h
    refine ⟨_, _, congrArg _ List.takeWhile_append_dropWhile.symm, ?_, h⟩
    intro hslash
    simpa using List.mem_takeWhile_imp hslash

/-- The two ways in which a name is impossible, as they are tested. -/
theorem not_namesImpossible_iff {rest : Wide} :
    ¬NamesImpossible (.char '~' :: rest) ↔
      Wide.unwritable? (!·.hasBytes) (rest.takeWhile (· != .char '/')) = none ∧
        (rest.takeWhile (· != .char '/')).contains (.char '\x00') = false := by
  rw [namesImpossible_iff, Wide.unwritable?_eq_none_iff, List.contains_eq_mem, not_or, and_comm]
  simp

theorem not_namesImpossible_of_head? {path : Wide} (h : path.head? ≠ some (.char '~')) :
    ¬NamesImpossible path := by
  rintro ⟨name, behind, rfl, -⟩
  exact h rfl

namespace Settings

/-- A path is refused for the user that it names, and for nothing else. -/
theorem exists_expandHome_iff (homes : Homes) {path : Wide} :
    (∃ q, expandHome homes path = .ok q) ↔ ¬NamesImpossible path := by
  fun_cases expandHome homes path with
  | case1 rest user why hwhy =>
    constructor
    · rintro ⟨q, ⟨⟩⟩
    · intro h
      cases hwhy.symm.trans (not_namesImpossible_iff.mp h).1
  | case2 rest user hbytes hnull =>
    constructor
    · rintro ⟨q, ⟨⟩⟩
    · intro h
      cases hnull.symm.trans (not_namesImpossible_iff.mp h).2
  | case3 rest user behind hbytes hnull home =>
    exact iff_of_true ⟨_, rfl⟩ (not_namesImpossible_iff.mpr ⟨hbytes, by simpa using hnull⟩)
  | case4 rest user hbytes hnull =>
    exact iff_of_true ⟨_, rfl⟩ (not_namesImpossible_iff.mpr ⟨hbytes, by simpa using hnull⟩)
  | case5 path hother =>
    refine ⟨fun _ => not_namesImpossible_of_head? fun hhead => ?_, fun _ => ⟨path, rfl⟩⟩
    obtain ⟨rest, hrest⟩ := List.head?_eq_some_iff.mp hhead
    exact hother rest hrest

/-! ## Paths in a home directory -/

/-- A path with a user in front is moved to a home directory, which may be the root. -/
inductive Moved (home : Wide) : Wide → Wide → Prop
  | root {user : Wide} (h : homeStem home = []) : Moved home (.char '~' :: user) [.char '/']
  | home {user : Wide} (h : homeStem home ≠ []) : Moved home (.char '~' :: user) (homeStem home)
  | inside (user rest : Wide) :
      Moved home (.char '~' :: (user ++ .char '/' :: rest)) (homeStem home ++ .char '/' :: rest)

/-- A home directory is absolute and, without the slashes at its end, has no blank there. -/
structure IsHome (home : Wide) : Prop where
  absolute : home.head? = some (.char '/')
  ends : ∀ c, (homeStem home).getLast? = some c → c.isBlank = false

/-- All homes that are known are home directories. -/
def AreHomes (homes : Homes) : Prop := ∀ user home, homes user = some home → IsHome home

/-- A home directory of one's own is enough if no user is known. -/
theorem areHomes_withOwn {homes : Homes} {home : Wide} (h : IsHome home)
    (hunknown : ∀ user, homes user = none) : AreHomes (homes.withOwn (some home)) := by
  intro user home' hhome
  rw [Homes.withOwn, hunknown, Option.or_none] at hhome
  simp only [Option.ite_none_right_eq_some, Option.some_inj] at hhome
  obtain ⟨-, rfl⟩ := hhome
  exact h

theorem moved_dropWhile (home rest : Wide) :
    let path := homeStem home ++ rest.dropWhile (· != .char '/')
    Moved home (.char '~' :: rest) (if path.isEmpty then [.char '/'] else path) := by
  cases hbehind : rest.dropWhile (· != .char '/') with
  | nil =>
    simp only [List.append_nil]
    split
    · next hnil => exact .root (List.isEmpty_iff.mp hnil)
    · next hnil => exact .home (mt List.isEmpty_iff.mpr hnil)
  | cons c behind =>
    have hhead := List.head?_dropWhile_not (· != .char '/') rest
    obtain rfl : c = .char '/' := by simpa [hbehind] using hhead
    have hrest : rest.takeWhile (· != .char '/') ++ .char '/' :: behind = rest := by
      rw [← hbehind, List.takeWhile_append_dropWhile]
    have hmoved : Moved home _ _ := .inside (rest.takeWhile (· != .char '/')) behind
    rw [hrest] at hmoved
    simpa using hmoved

/-- **What a path is expanded to**: itself or, if it is one of a home directory, where it is. -/
theorem eq_or_moved_of_expandHome {homes : Homes} {path q : Wide}
    (h : expandHome homes path = .ok q) :
    q = path ∨ ∃ user home, homes user = some home ∧ Moved home path q := by
  revert h
  fun_cases expandHome homes path with
  | case1 rest user why hwhy => rintro ⟨⟩
  | case2 rest user hbytes hnull => rintro ⟨⟩
  | case3 rest user behind hbytes hnull home hhome path =>
    rintro ⟨⟩
    exact .inr ⟨_, home, hhome, moved_dropWhile home rest⟩
  | case4 rest user hbytes hnull hhome =>
    rintro ⟨⟩
    exact .inl rfl
  | case5 path hother =>
    rintro ⟨⟩
    exact .inl rfl

theorem expandHome_of_absolute {homes : Homes} {path : Wide}
    (h : path.head? = some (.char '/')) : expandHome homes path = .ok path := by
  obtain ⟨rest, rfl⟩ := List.head?_eq_some_iff.mp h
  rfl

variable {home path q : Wide}

theorem Moved.ne_nil (h : Moved home path q) : q ≠ [] := by
  cases h with
  | root h => simp
  | home h => exact h
  | inside user rest => simp

theorem head?_homeStem (hhome : IsHome home) (h : homeStem home ≠ []) :
    (homeStem home).head? = some (.char '/') := by
  have hprefix : homeStem home <+: home := List.rdropWhile_prefix _ _
  obtain ⟨slashes, hhead⟩ := hprefix
  have habsolute := hhome.absolute
  rwa [← hhead, List.head?_append_of_ne_nil _ h] at habsolute

theorem Moved.head? (h : Moved home path q) (hhome : IsHome home) :
    q.head? = some (.char '/') := by
  cases h with
  | root h => rfl
  | home h => exact head?_homeStem hhome h
  | inside user rest =>
    by_cases hnil : homeStem home = []
    · rw [hnil]
      rfl
    · rw [List.head?_append_of_ne_nil _ hnil, head?_homeStem hhome hnil]

/-- No blank gets to the end of a path. -/
theorem Moved.isBlank_of_getLast? (h : Moved home path q) (hhome : IsHome home)
    (hpath : ∀ c, path.getLast? = some c → c.isBlank = false) {c : CodePoint}
    (hc : q.getLast? = some c) : c.isBlank = false := by
  cases h with
  | root h =>
    obtain rfl : .char '/' = c := by simpa using hc
    decide
  | home h => exact hhome.ends c hc
  | inside user rest =>
    apply hpath c
    rw [List.getLast?_append_of_ne_nil _ (List.cons_ne_nil (.char '/') rest)] at hc
    rwa [← List.cons_append, List.getLast?_append_of_ne_nil _ (List.cons_ne_nil (.char '/') rest)]

/-- **A path that was expanded stays as it is.** -/
theorem normalHistory_of_expandHome {homes : Homes} (hhomes : AreHomes homes) {given : Wide}
    (hne : given.trim ≠ []) (h : expandHome homes given.trim = .ok q) :
    normalHistory homes q = .ok (some q) := by
  have hfixed : q ≠ [] ∧ Wide.trim q = q ∧ expandHome homes q = .ok q := by
    rcases eq_or_moved_of_expandHome h with rfl | ⟨user, home, hhome, hmoved⟩
    · exact ⟨hne, Text.cutEnds_cutEnds, h⟩
    · have hproper := hhomes user home hhome
      have hhead := hmoved.head? hproper
      refine ⟨hmoved.ne_nil, Text.cutEnds_eq_self ?_ ?_, expandHome_of_absolute hhead⟩
      · intro c hc
        obtain rfl := Option.some.inj (hhead.symm.trans hc)
        decide
      · exact fun c => hmoved.isBlank_of_getLast? hproper fun c => Text.eq_false_of_getLast?_cutEnds
  obtain ⟨hne, htrim, hexpand⟩ := hfixed
  rw [normalHistory, htrim, hexpand, if_neg (mt List.isEmpty_iff.mp hne)]
  rfl

/-! ## Accepted fields -/

variable {homes : Homes} {fields : List (String × Value)} {s : Settings}

/-- **Fields of other names mean nothing.** -/
theorem ofFields_congr {fields' : List (String × Value)}
    (h : ∀ x : Setting, fields'.lookup x.name = fields.lookup x.name) :
    ofFields homes fields' = ofFields homes fields := by
  have hraw : RawSettings.ofFields fields' = RawSettings.ofFields fields := by
    rw [RawSettings.ofFields, h, h, h]
    rfl
  rw [ofFields, hraw, ofFields]

/-- Settings are read each from its own value. -/
theorem ofFields_eq_ok_iff :
    ofFields homes fields = .ok s ↔
      readSetting .prompt readText "calc> " (fields.lookup "prompt") = .ok s.prompt ∧
      readSetting .historyFile (readHistory homes) none (fields.lookup "history_file") =
        .ok s.historyFile ∧
      readSetting .logLevel readLevel .warning (fields.lookup "log_level") = .ok s.level := by
  obtain ⟨p, h, l⟩ := s
  simp only [ofFields, validate, RawSettings.ofFields, Setting.name]
  generalize readSetting .prompt readText _ _ = prompt
  generalize readSetting .historyFile (readHistory homes) _ _ = history
  generalize readSetting .logLevel readLevel _ _ = level
  cases prompt <;> cases history <;> cases level <;> simp

theorem readSetting_some_iff {α : Type} {x : Setting} {read : Value → Except Fault α}
    {default a : α} {v : Value} : readSetting x read default (some v) = .ok a ↔ read v = .ok a := by
  rw [readSetting]
  cases read v <;> simp

theorem exists_readSetting_iff {α : Type} {x : Setting} {read : Value → Except Fault α}
    {default : α} {given : Option Value} :
    (∃ a, readSetting x read default given = .ok a) ↔
      ∀ v, given = some v → ∃ a, read v = .ok a := by
  cases given with
  | none => exact iff_of_true ⟨default, rfl⟩ nofun
  | some v => simp [readSetting_some_iff]

/-- A reader of texts accepts a value that gives a text which it accepts. -/
theorem bind_readText_eq_ok_iff {α : Type} {read : Wide → Except Fault α} {v : Value} {a : α} :
    (readText v).bind read = .ok a ↔ ∃ text, v.text? = some text ∧ read text = .ok a := by
  simp only [← readText_eq_ok_iff]
  cases readText v <;> simp [Except.bind]

theorem readHistory_eq_ok_iff {v : Value} {h : Option Wide} :
    readHistory homes v = .ok h ↔
      v = .null ∧ h = none ∨ ∃ text, v.text? = some text ∧ normalHistory homes text = .ok h := by
  rw [← bind_readText_eq_ok_iff]
  fun_cases readHistory homes v with
  | case1 => simp [readText, Value.text?, Except.bind, eq_comm]
  | case2 v hne => simp [show v ≠ .null from hne]

theorem normalLevel_eq_ok_iff {given : Wide} {level : Level} :
    normalLevel given = .ok level ↔ levelText given = level.name := by
  rw [normalLevel]
  constructor
  · split
    · next hlevel =>
      rintro ⟨⟩
      exact Level.eq_name_of_ofName? hlevel
    · split <;> rintro ⟨⟩
  · intro h
    rw [h, Level.ofName?_name]

theorem exists_normalHistory_iff {given : Wide} :
    (∃ h, normalHistory homes given = .ok h) ↔ ¬NamesImpossible given.trim := by
  rw [normalHistory]
  split
  · next hnil =>
    rw [List.isEmpty_iff.mp hnil]
    exact iff_of_true ⟨none, rfl⟩ (not_namesImpossible_of_head? (by simp))
  · rw [← exists_expandHome_iff homes]
    cases expandHome homes given.trim <;> simp [Except.map]

theorem exists_readText_iff {v : Value} :
    (∃ p, readText v = .ok p) ↔
      Setting.prompt.Takes v ∧ ¬Setting.prompt.AsksForImpossible v := by
  simp only [readText_eq_ok_iff]
  constructor
  · rintro ⟨text, htext⟩
    refine ⟨.prompt htext, ?_⟩
    rintro ⟨⟩
  · rintro ⟨⟨htext⟩, -⟩
    exact ⟨_, htext⟩

theorem exists_readHistory_iff {v : Value} :
    (∃ h, readHistory homes v = .ok h) ↔
      Setting.historyFile.Takes v ∧ ¬Setting.historyFile.AsksForImpossible v := by
  simp only [readHistory_eq_ok_iff]
  constructor
  · rintro ⟨h, ⟨rfl, -⟩ | ⟨text, htext, hread⟩⟩
    · refine ⟨.noHistory, ?_⟩
      rintro ⟨⟨⟩, -⟩
    · refine ⟨.historyFile htext, ?_⟩
      rintro ⟨htext', hnames⟩
      obtain rfl := Option.some.inj (htext.symm.trans htext')
      exact exists_normalHistory_iff.mp ⟨h, hread⟩ hnames
  · rintro ⟨htakes, hpossible⟩
    cases htakes with
    | noHistory => exact ⟨none, .inl ⟨rfl, rfl⟩⟩
    | historyFile htext =>
      obtain ⟨h, hread⟩ := exists_normalHistory_iff.mpr fun hnames => hpossible ⟨htext, hnames⟩
      exact ⟨h, .inr ⟨_, htext, hread⟩⟩

theorem exists_readLevel_iff {v : Value} :
    (∃ level, readLevel v = .ok level) ↔
      Setting.logLevel.Takes v ∧ ¬Setting.logLevel.AsksForImpossible v := by
  simp only [readLevel, bind_readText_eq_ok_iff, normalLevel_eq_ok_iff]
  constructor
  · rintro ⟨level, text, htext, hlevel⟩
    refine ⟨.logLevel htext (mem_levelNames_iff.mpr ⟨level, rfl⟩) hlevel, ?_⟩
    rintro ⟨⟩
  · rintro ⟨htakes, -⟩
    cases htakes with
    | logLevel htext hname hlevel =>
      obtain ⟨level, rfl⟩ := mem_levelNames_iff.mp hname
      exact ⟨level, _, htext, hlevel⟩

/-- **Fields are accepted** just when each setting takes the value that is given for it, save a
history file of an impossible user. -/
theorem exists_ofFields_iff :
    (∃ s, ofFields homes fields = .ok s) ↔
      ∀ (x : Setting) (v : Value), fields.lookup x.name = some v →
        x.Takes v ∧ ¬x.AsksForImpossible v := by
  have hread : (∃ s, ofFields homes fields = .ok s) ↔
      (∃ p, readSetting .prompt readText "calc> " (fields.lookup "prompt") = .ok p) ∧
      (∃ h, readSetting .historyFile (readHistory homes) none (fields.lookup "history_file") =
        .ok h) ∧
      ∃ l, readSetting .logLevel readLevel .warning (fields.lookup "log_level") = .ok l := by
    simp only [ofFields_eq_ok_iff]
    constructor
    · rintro ⟨s, hprompt, hhistory, hlevel⟩
      exact ⟨⟨_, hprompt⟩, ⟨_, hhistory⟩, _, hlevel⟩
    · rintro ⟨⟨p, hprompt⟩, ⟨h, hhistory⟩, l, hlevel⟩
      exact ⟨⟨p, h, l⟩, hprompt, hhistory, hlevel⟩
  rw [hread]
  simp only [exists_readSetting_iff, exists_readText_iff, exists_readHistory_iff,
    exists_readLevel_iff]
  constructor
  · rintro ⟨hprompt, hhistory, hlevel⟩ x
    cases x
    exacts [hprompt, hhistory, hlevel]
  · exact fun h => ⟨h .prompt, h .historyFile, h .logLevel⟩

/-! ## The normal form -/

/-- A file for the history is given that is not blank. -/
def GivesHistory (fields : List (String × Value)) : Prop :=
  ∃ v text, fields.lookup "history_file" = some v ∧ v.text? = some text ∧
    ∃ c ∈ text, c.isBlank = false

/-- Settings as the fields that give them. -/
def toFields (s : Settings) : List (String × Value) :=
  [("prompt", .text s.prompt), ("history_file", s.historyFile.elim .null .text),
    ("log_level", .text s.level.name)]

/-- **Settings are in normal form** for the fields that they are read from. -/
structure IsNormal (homes : Homes) (given : List (String × Value)) (s : Settings) : Prop where
  /-- The level has one of the five names. -/
  level : s.level.name ∈ levelNames
  /-- It is the one that the given text names. -/
  level_of_given : ∀ v text, given.lookup "log_level" = some v → v.text? = some text →
    levelText text = s.level.name
  /-- There is no path for the history just when none is given or a blank one. -/
  historyFile_eq_none_iff : s.historyFile = none ↔ ¬GivesHistory given
  path_ne_nil : ∀ path, s.historyFile = some path → path ≠ []
  /-- A terminal has its history in a file just when one is given that is not blank. -/
  keepsFile_iff : ∀ readings,
    (∃ path, (LineSource.script readings).history? s.historyFile = some (.file path)) ↔
      GivesHistory given
  /-- Given as fields again the settings stay as they are. -/
  again : AreHomes homes → ofFields homes s.toFields = .ok s

theorem normalHistory_cases {text : Wide} {h : Option Wide}
    (hread : normalHistory homes text = .ok h) :
    (h = none ∧ text.trim = []) ∨
      ∃ q, text.trim ≠ [] ∧ expandHome homes text.trim = .ok q ∧ h = some q := by
  rw [normalHistory] at hread
  split at hread
  · next hnil =>
    obtain rfl := Except.ok.inj hread
    exact .inl ⟨rfl, List.isEmpty_iff.mp hnil⟩
  · next hne =>
    cases hexpand : expandHome homes text.trim with
    | error e =>
      rw [hexpand] at hread
      cases hread
    | ok q =>
      rw [hexpand] at hread
      exact .inr ⟨q, mt List.isEmpty_iff.mpr hne, rfl, (Except.ok.inj hread).symm⟩

/-- **What is read for the history**: nothing, for a blank text too, or the path that a text expands
to. -/
theorem historyFile_cases {given : Option Value} {h : Option Wide}
    (hread : readSetting .historyFile (readHistory homes) none given = .ok h) :
    (h = none ∧ ∀ v text, given = some v → v.text? = some text → text.trim = []) ∨
      ∃ v text q, given = some v ∧ v.text? = some text ∧ text.trim ≠ [] ∧
        expandHome homes text.trim = .ok q ∧ h = some q := by
  cases given with
  | none =>
    obtain rfl := Except.ok.inj hread
    exact .inl ⟨rfl, nofun⟩
  | some v =>
    rw [readSetting_some_iff, readHistory_eq_ok_iff] at hread
    rcases hread with ⟨rfl, rfl⟩ | ⟨text, htext, hread⟩
    · refine .inl ⟨rfl, ?_⟩
      rintro _ text ⟨⟩ htext
      cases htext
    · rcases normalHistory_cases hread with ⟨rfl, hnil⟩ | ⟨q, hne, hexpand, rfl⟩
      · refine .inl ⟨rfl, ?_⟩
        rintro _ text' ⟨⟩ htext'
        obtain rfl := Option.some.inj (htext.symm.trans htext')
        exact hnil
      · exact .inr ⟨v, text, q, rfl, htext, hne, hexpand, rfl⟩

theorem expandHome_ne_nil {path q : Wide} (hne : path ≠ [])
    (h : expandHome homes path = .ok q) : q ≠ [] := by
  rcases eq_or_moved_of_expandHome h with rfl | ⟨user, home, -, hmoved⟩
  · exact hne
  · exact hmoved.ne_nil

theorem givesHistory_iff :
    GivesHistory fields ↔
      ∃ v text, fields.lookup "history_file" = some v ∧ v.text? = some text ∧ text.trim ≠ [] := by
  simp only [GivesHistory, Wide.trim, ne_eq, Text.cutEnds_eq_nil_iff, not_forall,
    Bool.not_eq_true, exists_prop]

/-- **The path of accepted settings.** There is one if a file is given that is not blank; it is not
empty, and read again it stays as it is. -/
theorem path_cases (h : ofFields homes fields = .ok s) :
    (s.historyFile = none ∧ ¬GivesHistory fields) ∨
      ∃ path, s.historyFile = some path ∧ path ≠ [] ∧ GivesHistory fields ∧
        (AreHomes homes → normalHistory homes path = .ok (some path)) := by
  rw [givesHistory_iff]
  obtain ⟨-, hhistory, -⟩ := ofFields_eq_ok_iff.mp h
  rcases historyFile_cases hhistory with
    ⟨hnone, hblank⟩ | ⟨v, text, q, hgiven, htext, hne, hexpand, hsome⟩
  · refine .inl ⟨hnone, ?_⟩
    rintro ⟨v, text, hgiven, htext, hne⟩
    exact hne (hblank v text hgiven htext)
  · exact .inr ⟨q, hsome, expandHome_ne_nil hne hexpand, ⟨v, text, hgiven, htext, hne⟩,
      fun hhomes => normalHistory_of_expandHome hhomes hne hexpand⟩

/-- A terminal keeps its lines in a file if there is a path for it that is not empty. -/
theorem exists_history?_eq_file_iff {path : Option Wide} {readings : List Reading} :
    (∃ p, (LineSource.script readings).history? path = some (.file p)) ↔
      ∃ p, path = some p ∧ p ≠ [] := by
  rw [LineSource.history?]
  cases path with
  | none => simp [History.ofPath]
  | some path => cases path <;> simp [History.ofPath]

/-- **The path of accepted settings is read again as it is.** -/
theorem readSetting_path_again (h : ofFields homes fields = .ok s) (hhomes : AreHomes homes) :
    readSetting .historyFile (readHistory homes) none (some (s.historyFile.elim .null .text)) =
      .ok s.historyFile := by
  rw [readSetting_some_iff, readHistory_eq_ok_iff]
  rcases path_cases h with ⟨hnone, -⟩ | ⟨path, hsome, -, -, hfixed⟩
  · rw [hnone]
    exact .inl ⟨rfl, rfl⟩
  · rw [hsome]
    exact .inr ⟨path, rfl, hfixed hhomes⟩

theorem isNormal_of_ofFields (h : ofFields homes fields = .ok s) : IsNormal homes fields s := by
  obtain ⟨-, -, hlevel⟩ := ofFields_eq_ok_iff.mp h
  have hnamed : s.level.name ∈ levelNames := mem_levelNames_iff.mpr ⟨s.level, rfl⟩
  have hgiven : ∀ v text, fields.lookup "log_level" = some v → v.text? = some text →
      levelText text = s.level.name := by
    intro v text hv htext
    rw [hv, readSetting_some_iff, readLevel, bind_readText_eq_ok_iff] at hlevel
    obtain ⟨text', htext', hread⟩ := hlevel
    obtain rfl := Option.some.inj (htext.symm.trans htext')
    exact normalLevel_eq_ok_iff.mp hread
  have hagain : AreHomes homes → ofFields homes s.toFields = .ok s := fun hhomes =>
    ofFields_eq_ok_iff.mpr ⟨rfl, readSetting_path_again h hhomes, readSetting_name s.level⟩
  rcases path_cases h with ⟨hnone, hgives⟩ | ⟨path, hsome, hne, hgives, -⟩
  · exact {
      level := hnamed
      level_of_given := hgiven
      historyFile_eq_none_iff := iff_of_true hnone hgives
      path_ne_nil := by simp [hnone]
      keepsFile_iff := fun _ =>
        exists_history?_eq_file_iff.trans (iff_of_false (by simp [hnone]) hgives)
      again := hagain }
  · exact {
      level := hnamed
      level_of_given := hgiven
      historyFile_eq_none_iff := iff_of_false (by simp [hsome]) (not_not_intro hgives)
      path_ne_nil := by simp [hsome, hne]
      keepsFile_iff := fun _ =>
        exists_history?_eq_file_iff.trans (iff_of_true ⟨path, hsome, hne⟩ hgives)
      again := hagain }

/-- **Settings are in normal form.** Fields are accepted just when each setting takes the value that
is given for it, if no history file is asked for in the home of a user whom nobody can ask for.
Fields of other names mean nothing. Whatever is accepted is in normal form. -/
theorem normal_form (homes : Homes) (fields : List (String × Value)) :
    ((∃ s, ofFields homes fields = .ok s) ↔
      ∀ (x : Setting) (v : Value), fields.lookup x.name = some v →
        x.Takes v ∧ ¬x.AsksForImpossible v) ∧
    (∀ fields', (∀ x : Setting, fields'.lookup x.name = fields.lookup x.name) →
      ofFields homes fields' = ofFields homes fields) ∧
    ∀ s, ofFields homes fields = .ok s → IsNormal homes fields s :=
  ⟨exists_ofFields_iff, fun _ => ofFields_congr, fun _ => isNormal_of_ofFields⟩

/-- A path in a home directory with slashes at its end, a level with a dotless letter and a prompt
in bytes, beside a field that means nothing: the settings are accepted, and again when they are
given as fields. -/
theorem normal_form_expanded :
    let homes : Homes := Homes.withOwn (fun _ => none) (some (.ofString "/u//"))
    let fields := [("colour", Value.null), ("history_file", .text " ~/.h\t"),
      ("log_level", .text "\u00a0\u0131nfo "), ("prompt", .bytes [36, 32])]
    let s : Settings := ⟨"$ ", some "/u/.h", .info⟩
    ofFields homes fields = .ok s ∧ ofFields homes (fields.drop 1) = .ok s ∧
      (LineSource.script []).history? s.historyFile = some (.file "/u/.h") ∧
      AreHomes homes ∧ ofFields homes s.toFields = .ok s := by
  intro homes fields s
  obtain ⟨-, hunknown, hnormal⟩ := normal_form homes fields
  have hnames : levelText "\u00a0\u0131nfo " = "INFO" := by decide +kernel
  have hlevel : readLevel (.text "\u00a0\u0131nfo ") = .ok .info :=
    bind_readText_eq_ok_iff.mpr ⟨_, rfl, normalLevel_eq_ok_iff.mpr hnames⟩
  have h : ofFields homes fields = .ok s :=
    ofFields_eq_ok_iff.mpr ⟨rfl, rfl, readSetting_some_iff.mpr hlevel⟩
  have hhome : IsHome "/u//" := by
    refine ⟨by decide, fun c hc => ?_⟩
    obtain rfl : .char 'u' = c := Option.some.inj hc
    decide
  have hhomes : AreHomes homes := areHomes_withOwn hhome fun _ => rfl
  have hsame : ∀ x : Setting, (fields.drop 1).lookup x.name = fields.lookup x.name := by
    intro x
    cases x <;> rfl
  exact ⟨h, (hunknown _ hsame).trans h, rfl, hhomes, (hnormal s h).again hhomes⟩

/-- **A user with a null character in the name, and a prompt in bytes**: the setting takes the text,
which is refused, and the other one takes what is no text and only stands for one. -/
theorem history_refused_for_null :
    let homes : Homes := Homes.withOwn (fun _ => none) (some (.ofString "/home/tester"))
    (∀ (x : Setting) (v : Value),
      [("history_file", Value.text "~\x00")].lookup x.name = some v → x.Takes v) ∧
      (¬∃ s, ofFields homes [("history_file", .text "~\x00")] = .ok s) ∧
      ∃ s, ofFields homes [("prompt", .bytes [36, 32])] = .ok s ∧
        s.prompt = Wide.ofString "$ " := by
  intro homes
  refine ⟨?_, ?_, ?_⟩
  · intro x v h
    cases x with
    | historyFile =>
      obtain rfl : Value.text "~\x00" = v := Option.some.inj h
      exact .historyFile rfl
    | prompt => cases h
    | logLevel => cases h
  · rintro ⟨s, h⟩
    cases h
  · exact ⟨⟨"$ ", none, .warning⟩, rfl, rfl⟩

end Settings
end Abacus
