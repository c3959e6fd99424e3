import Mathlib.Data.List.Nodup
import Mathlib.Logic.Function.Basic
import MovieCatalog.Settings.CommandLine

/-!
# Settings that are given

A setting is given by an option or by a variable, as a text from which its value is read
(`Setting.read?`). While arguments and variables are read one after the other, the settings given so
far are those for which a text has come up, with the values in these texts (`GivenSettings.Holds`).
An argument or a variable adds one text and keeps the others, or it is at fault (`Settles`); so in
the end the value of an option is taken if there is one, and else that of the variable
(`settles_read`).
-/

namespace MovieCatalog

/-! ## One setting -/

namespace Setting

/-- The values that a setting may have. -/
abbrev Value : Setting → Type
  | bind => Net.SocketAddress
  | timeout => UInt64
  | engineUrl | index | logLevel => String

/-- Reads a value of a setting. -/
def read? : (s : Setting) → String → Option s.Value
  | bind, text => Net.SocketAddress.read? text.toList
  | timeout, text => GivenSettings.seconds? text
  | engineUrl, text | index, text | logLevel, text => some text

/-- The text that is read when nothing else is given. -/
def usual : Setting → String
  | bind => "0.0.0.0:7000"
  | engineUrl => "http://localhost:9200"
  | index => "movie_index"
  | timeout => "30"
  | logLevel => "info"

/-- The argument that gives a setting a value behind an equals sign. -/
def argument (s : Setting) (value : String) : String :=
  "--" ++ s.option ++ "=" ++ value

/-- The arguments that give several settings their values. -/
def arguments (given : List (Setting × String)) : List String :=
  given.map fun p => p.1.argument p.2

/-- The text that is given for a setting: the value of its option, else that of its variable. -/
def source (given : List (Setting × String)) (environment : List (String × String))
    (s : Setting) : Option String :=
  (given.lookup s).or (environment.lookup s.variableName)

theorem mem_all (s : Setting) : s ∈ all := by
  cases s <;> simp [all]

/-- A setting is known by its option. -/
theorem ofOption?_option (s : Setting) : ofOption? s.option = some s := by
  cases s <;> decide

/-- Different settings have different variables. -/
theorem variableName_injective : Function.Injective variableName := by
  intro s t h
  cases s <;> cases t <;> first | rfl | exact absurd h (by decide)

/-- There is no equals sign in an option, so that what is behind one is a value. -/
theorem eq_notMem_option (s : Setting) : '=' ∉ s.option.toList := by
  cases s <;> decide

end Setting

/-- The value of a setting. -/
def Settings.get (settings : Settings) : (s : Setting) → s.Value
  | .bind => settings.bind
  | .engineUrl => settings.engineUrl
  | .index => settings.index
  | .timeout => settings.timeout
  | .logLevel => settings.logLevel

/-- Settings with the same values are the same. -/
theorem Settings.ext_get {a b : Settings} (h : ∀ s, a.get s = b.get s) : a = b := by
  cases a
  cases b
  rw [Settings.mk.injEq]
  exact ⟨h .bind, h .engineUrl, h .index, h .timeout, h .logLevel⟩

namespace GivenSettings

/-- The value of a setting, if it has been given. -/
def get (g : GivenSettings) : (s : Setting) → Option s.Value
  | .bind => g.bind
  | .engineUrl => g.engineUrl
  | .index => g.index
  | .timeout => g.timeout
  | .logLevel => g.logLevel

/-- Gives a setting a value. -/
def set (g : GivenSettings) : (s : Setting) → s.Value → GivenSettings
  | .bind, v => { g with bind := some v }
  | .engineUrl, v => { g with engineUrl := some v }
  | .index, v => { g with index := some v }
  | .timeout, v => { g with timeout := some v }
  | .logLevel, v => { g with logLevel := some v }

variable (g : GivenSettings)

theorem has_eq_isSome (s : Setting) : g.has s = (g.get s).isSome := by
  cases s <;> rfl

/-- A text gives a setting the value that is read from it. -/
theorem give?_eq_map (s : Setting) (text : String) :
    g.give? s text = (s.read? text).map (g.set s) := by
  cases s <;> rfl

/-- A setting has the value that it was given. -/
theorem get_set_self (s : Setting) (v : s.Value) : (g.set s v).get s = some v := by
  cases s <;> rfl

/-- A setting keeps its value when another one is given. -/
theorem get_set_of_ne {s t : Setting} (h : t ≠ s) (v : s.Value) : (g.set s v).get t = g.get t := by
  cases s <;> cases t <;> first | rfl | exact absurd rfl h

/-- A given value is not replaced by the usual one. -/
theorem get_complete_of_eq_some {s : Setting} {v : s.Value} (h : g.get s = some v) :
    g.complete.get s = v := by
  cases s <;> exact congrArg (Option.getD · _) h

/-- A setting that has not been given is completed by the value in its usual text. -/
theorem read?_usual_of_eq_none {s : Setting} (h : g.get s = none) :
    s.read? s.usual = some (g.complete.get s) := by
  have husual : s.read? s.usual = some (nothing.complete.get s) := by
    cases s <;> decide
  rw [husual]
  cases s <;> exact congrArg (fun v => some (Option.getD v _)) h.symm

end GivenSettings

/-! ## Where the settings given so far come from -/

section
variable {g : GivenSettings} {source : Setting → Option String} {s : Setting}

/-- The settings that have been given are those for which there is a text, with the values in these
texts. -/
def GivenSettings.Holds (g : GivenSettings) (source : Setting → Option String) : Prop :=
  ∀ s, Option.Rel (fun text value => s.read? text = some value) (source s) (g.get s)

/-- What reading comes to when it has to read the texts: settings with the values in them, or a
fault because one of them cannot be read. -/
inductive Settles (source : Setting → Option String) : Except UsageFault GivenSettings → Prop
  | ok {g : GivenSettings} (h : g.Holds source) : Settles source (.ok g)
  | fault {s : Setting} {text : String} (hgiven : source s = some text)
      (hread : s.read? text = none) : Settles source (.error .unreadableValue)

/-- At first nothing is given. -/
theorem GivenSettings.holds_nothing : nothing.Holds fun _ => none := by
  intro s
  cases s <;> exact .none

/-- A setting is given if it has a source. -/
theorem GivenSettings.Holds.has_eq (h : g.Holds source) (s : Setting) :
    g.has s = (source s).isSome := by
  have hs := h s
  rw [has_eq_isSome]
  generalize source s = text at hs
  generalize g.get s = value at hs
  cases hs <;> rfl

/-- One more setting is given. -/
theorem GivenSettings.Holds.set (h : g.Holds source) {text : String} {value : s.Value}
    (hread : s.read? text = some value) :
    (g.set s value).Holds (Function.update source s (some text)) := by
  intro t
  by_cases hst : t = s
  · subst hst
    rw [Function.update_self, get_set_self]
    exact .some hread
  · rw [Function.update_of_ne hst, get_set_of_ne g hst]
    exact h t

/-- Completed settings have the values in the texts, or those in the usual texts. -/
theorem GivenSettings.Holds.read?_complete (h : g.Holds source) (s : Setting) :
    s.read? ((source s).getD s.usual) = some (g.complete.get s) := by
  have hs := h s
  generalize htext : source s = text at hs
  generalize hvalue : g.get s = value at hs
  cases hs with
  | some hread =>
    rw [get_complete_of_eq_some g hvalue]
    exact hread
  | none => exact read?_usual_of_eq_none g hvalue

/-- A fault stays one, and later texts are read when the earlier ones have been. -/
theorem Settles.bind {source' : Setting → Option String} {x : Except UsageFault GivenSettings}
    {k : GivenSettings → Except UsageFault GivenSettings} (h : Settles source x)
    (hkeep : ∀ s text, source s = some text → source' s = some text)
    (hk : ∀ g : GivenSettings, g.Holds source → Settles source' (k g)) :
    Settles source' (x >>= k) := by
  cases h with
  | ok hg => exact hk _ hg
  | fault hgiven hread => exact .fault (hkeep _ _ hgiven) hread

/-- A setting that is given for the first time has the value in its text, if there is one in it. -/
theorem settles_give (hg : g.Holds source) (hnew : source s = none) (text : String) :
    Settles (Function.update source s (some text)) (CommandLine.give g s text) := by
  have hhas : g.has s = false := by
    rw [hg.has_eq, hnew]
    rfl
  rw [CommandLine.give, hhas, GivenSettings.give?_eq_map]
  cases hread : s.read? text with
  | none => exact .fault (Function.update_self ..) hread
  | some value => exact .ok (hg.set hread)

/-! ## Arguments -/

/-- An argument with a name and a value is understood as such, whatever the value is. -/
theorem Argument.ofText_argument (s : Setting) (value : String) :
    ofText (s.argument value) = .option s (some value) := by
  have htext : (s.argument value).toList
      = '-' :: '-' :: (s.option.toList ++ '=' :: value.toList) := by
    simp [Setting.argument]
  have hlong : ofLong (s.option.toList ++ '=' :: value.toList) = .option s (some value) := by
    rw [ofLong, Text.cutAt_append_cons s.eq_notMem_option]
    simp [Setting.ofOption?_option]
  rw [ofText, htext, ← hlong]
  cases s <;> rfl

/-- Such an argument gives its setting a value. -/
theorem CommandLine.read_argument (g : GivenSettings) (s : Setting) (value : String)
    (rest : List String) :
    read ⟨g, none⟩ (s.argument value :: rest)
      = (give g s value >>= fun g => read ⟨g, none⟩ rest) := by
  have hoption : ¬ (Argument.option s (some value) = .endOfOptions ∧ (!rest.isEmpty) = true) :=
    fun h => Argument.noConfusion h.1
  have hstep : step ⟨g, none⟩ (.option s (some value))
      = (give g s value >>= fun g => .ok ⟨g, none⟩) := rfl
  rw [read, Argument.ofText_argument, if_neg hoption, hstep]
  cases give g s value <;> rfl

/-- Arguments that give each setting one value at most are read as these values. -/
theorem settles_read_arguments {given : List (Setting × String)}
    (hnodup : (given.map Prod.fst).Nodup) (hg : g.Holds source)
    (hnew : ∀ p ∈ given, source p.1 = none) :
    Settles (fun s => (source s).or (given.lookup s))
      (CommandLine.read ⟨g, none⟩ (Setting.arguments given)) := by
  -- the first argument becomes an earlier text for the later ones, which are for other settings
  induction given generalizing g source with
  | nil =>
    have hsource : (fun s => (source s).or (List.lookup s ([] : List (Setting × String))))
        = source := funext fun s => Option.or_none
    rw [hsource]
    exact .ok hg
  | cons p given ih =>
    obtain ⟨s, value⟩ := p
    obtain ⟨hfirst, hnodup⟩ := List.nodup_cons.1 hnodup
    obtain ⟨hs, hrest⟩ := List.forall_mem_cons.1 hnew
    have hlater : ∀ p ∈ given, Function.update source s (some value) p.1 = none := by
      intro p hp
      have hne : p.1 ≠ s := fun heq => hfirst (List.mem_map.2 ⟨p, hp, heq⟩)
      rw [Function.update_of_ne hne]
      exact hrest p hp
    have hsource : (fun t => (source t).or (((s, value) :: given).lookup t))
        = fun t => (Function.update source s (some value) t).or (given.lookup t) := by
      funext t
      by_cases ht : t = s
      · subst ht
        simp [hs]
      · simp [ht, List.lookup_cons, beq_false_of_ne ht]
    rw [Setting.arguments, List.map_cons, CommandLine.read_argument, hsource]
    refine (settles_give hg hs value).bind (fun t text ht => ?_) fun g' hg' => ih hnodup hg' hlater
    rw [ht, Option.some_or]

/-! ## Variables -/

/-- A variable gives its setting a value, unless the setting has one. -/
theorem settles_fromVariable (environment : List (String × String)) (hg : g.Holds source)
    (s : Setting) :
    Settles (Function.update source s ((source s).or (environment.lookup s.variableName)))
      (GivenSettings.fromVariable environment g s) := by
  have hhas := hg.has_eq s
  cases hsource : source s with
  | some text =>
    rw [hsource, Option.isSome_some] at hhas
    rw [Option.some_or, ← hsource, Function.update_eq_self, GivenSettings.fromVariable, if_pos hhas]
    exact .ok hg
  | none =>
    rw [hsource, Option.isSome_none] at hhas
    rw [Option.none_or]
    cases hlookup : environment.lookup s.variableName with
    | none =>
      rw [← hsource, Function.update_eq_self, GivenSettings.fromVariable, hhas, hlookup]
      exact .ok hg
    | some text =>
      have hgive : GivenSettings.fromVariable environment g s = CommandLine.give g s text := by
        rw [GivenSettings.fromVariable, CommandLine.give, hhas, hlookup]
        rfl
      rw [hgive]
      exact settles_give hg hsource text

/-- Variables give their settings values, one after the other. -/
theorem settles_fromVariables (environment : List (String × String)) (settings : List Setting)
    (hg : g.Holds source) :
    Settles (fun s => if s ∈ settings then (source s).or (environment.lookup s.variableName)
        else source s)
      (settings.foldlM (GivenSettings.fromVariable environment) g) := by
  induction settings generalizing g source with
  | nil =>
    simp only [List.not_mem_nil, if_false]
    exact .ok hg
  | cons s settings ih =>
    -- whether the variable gave the setting its text does not matter when it is looked at again
    have hsource : (fun t => if t ∈ s :: settings then
          (source t).or (environment.lookup t.variableName) else source t)
        = fun t =>
          let given := Function.update source s
            ((source s).or (environment.lookup s.variableName)) t
          if t ∈ settings then given.or (environment.lookup t.variableName) else given := by
      funext t
      by_cases ht : t = s
      · subst ht
        simp [Option.or_assoc]
      · simp [ht]
    rw [List.foldlM_cons, hsource]
    refine (settles_fromVariable environment hg s).bind (fun t text ht => ?_) fun g' hg' => ih hg'
    dsimp only
    rw [ht, Option.some_or, ite_self]

/-- Arguments and variables settle what is given for each setting. -/
theorem settles_read {given : List (Setting × String)} (hnodup : (given.map Prod.fst).Nodup)
    (environment : List (String × String)) :
    Settles (fun s => s.source given environment)
      (CommandLine.read ⟨.nothing, none⟩ (Setting.arguments given)
        >>= Setting.all.foldlM (GivenSettings.fromVariable environment)) := by
  have harguments := settles_read_arguments hnodup GivenSettings.holds_nothing fun _ _ => rfl
  refine harguments.bind (fun s text hs => ?_) fun g hg => ?_
  · rw [Option.none_or] at hs
    rw [Setting.source, hs, Option.some_or]
  · have hvariables := settles_fromVariables environment Setting.all hg
    simp only [Setting.mem_all, if_true, Option.none_or] at hvariables
    exact hvariables

end

end MovieCatalog
