import MovieCatalog.Proofs.Settings.Given

/-!
# Every setting is decided on its own

One text decides a setting: the value of its option, else that of its variable, else its usual text
(`Setting.decisive`). Reading arguments and environment succeeds exactly if each setting can read
its own text, and then has the value in it (`Settings.DecidedBy`, `Settings.decidedBy_read`).
-/

namespace MovieCatalog

namespace Setting

/-- The text that decides a setting: what is given for it, else its usual text. -/
def decisive (given : List (Setting × String)) (environment : List (String × String))
    (s : Setting) : String :=
  (s.source given environment).getD s.usual

end Setting

/-- What reading comes to is decided by one text for each setting: it succeeds exactly with the
settings whose values are read from the texts, and else fails because one of them cannot be read. -/
structure Settings.DecidedBy (result : Except UsageFault Settings) (text : Setting → String) :
    Prop where
  ok_iff : ∀ settings, result = .ok settings ↔
    ∀ s : Setting, s.read? (text s) = some (settings.get s)
  error_iff : ∀ fault, result = .error fault ↔
    fault = .unreadableValue ∧ ∃ s : Setting, s.read? (text s) = none

/-- What settles the texts given decides with the usual texts for the other settings. -/
theorem Settles.decidedBy {source : Setting → Option String} {x : Except UsageFault GivenSettings}
    (h : Settles source x) :
    Settings.DecidedBy (x >>= fun g => .ok g.complete) fun s => (source s).getD s.usual := by
  cases h with
  | @ok g hg =>
    refine ⟨fun settings => ⟨?_, fun h => ?_⟩, fun fault => ⟨fun h => ?_, ?_⟩⟩
    · rintro ⟨⟩
      exact hg.read?_complete
    · have hget : ∀ s, g.complete.get s = settings.get s := fun s =>
        Option.some.inj ((hg.read?_complete s).symm.trans (h s))
      exact congrArg Except.ok (Settings.ext_get hget)
    · cases h
    · rintro ⟨-, s, hnone⟩
      rw [hg.read?_complete s] at hnone
      cases hnone
  | @fault s text hgiven hread =>
    have hnone : s.read? ((source s).getD s.usual) = none := by
      rw [hgiven]
      exact hread
    refine ⟨fun settings => ⟨fun h => ?_, fun h => ?_⟩, fun fault => ⟨?_, ?_⟩⟩
    · cases h
    · cases hnone.symm.trans (h s)
    · rintro ⟨⟩
      exact ⟨rfl, s, hnone⟩
    · rintro ⟨rfl, -⟩
      rfl

namespace Settings

/-- Arguments and variables are read first, and what they give is completed. -/
theorem read_eq_bind (arguments : List String) (environment : List (String × String)) :
    Settings.read arguments environment
      = (CommandLine.read ⟨.nothing, none⟩ arguments
          >>= Setting.all.foldlM (GivenSettings.fromVariable environment))
        >>= fun g => .ok g.complete := by
  rw [bind_assoc]
  rfl

section
variable {given given' : List (Setting × String)}
  {environment environment' : List (String × String)}

/-- The settings are decided by their decisive texts. -/
theorem decidedBy_read (hnodup : (given.map Prod.fst).Nodup)
    (environment : List (String × String)) :
    DecidedBy (Settings.read (Setting.arguments given) environment)
      fun s => s.decisive given environment := by
  rw [read_eq_bind]
  exact (settles_read hnodup environment).decidedBy

/-- The texts leave no choice. -/
theorem DecidedBy.unique {result result' : Except UsageFault Settings} {text : Setting → String}
    (h : DecidedBy result text) (h' : DecidedBy result' text) : result' = result := by
  cases result with
  | ok settings => exact (h'.ok_iff settings).2 ((h.ok_iff settings).1 rfl)
  | error fault => exact (h'.error_iff fault).2 ((h.error_iff fault).1 rfl)

/-- The same text gives a setting the same value, whatever the other texts are. -/
theorem DecidedBy.get_eq {settings settings' : Settings} {text text' : Setting → String}
    (h : DecidedBy (.ok settings) text) (h' : DecidedBy (.ok settings') text') {s : Setting}
    (hs : text' s = text s) : settings'.get s = settings.get s := by
  have hread := (h.ok_iff settings).1 rfl s
  have hread' := (h'.ok_iff settings').1 rfl s
  rw [hs] at hread'
  exact Option.some.inj (hread'.symm.trans hread)

/-- Reading comes to the same where each setting has the same decisive text. -/
theorem read_congr (hnodup : (given.map Prod.fst).Nodup) (hnodup' : (given'.map Prod.fst).Nodup)
    (h : ∀ s : Setting, s.decisive given' environment' = s.decisive given environment) :
    Settings.read (Setting.arguments given') environment'
      = Settings.read (Setting.arguments given) environment := by
  have hsame := decidedBy_read hnodup' environment'
  rw [funext h] at hsame
  exact (decidedBy_read hnodup environment).unique hsame

/-- What is given once is found wherever it stands. -/
theorem lookup_eq_some_iff_mem (hnodup : (given.map Prod.fst).Nodup) {s : Setting}
    {value : String} : given.lookup s = some value ↔ (s, value) ∈ given := by
  induction given with
  | nil => simp
  | cons p given ih =>
    obtain ⟨t, text⟩ := p
    obtain ⟨hfirst, hnodup⟩ := List.nodup_cons.1 hnodup
    by_cases hs : s = t
    · subst hs
      have hnotMem : (s, value) ∉ given := fun h => hfirst (List.mem_map.2 ⟨_, h, rfl⟩)
      simp [hnotMem, eq_comm]
    · simp [List.lookup_cons, beq_false_of_ne hs, ih hnodup, hs]

/-- The order in which settings are given does not matter. -/
theorem lookup_eq_of_perm (hnodup : (given.map Prod.fst).Nodup) (h : given'.Perm given)
    (s : Setting) : given'.lookup s = given.lookup s := by
  have hnodup' : (given'.map Prod.fst).Nodup := (h.map Prod.fst).nodup_iff.2 hnodup
  refine Option.ext fun value => ?_
  rw [lookup_eq_some_iff_mem hnodup, lookup_eq_some_iff_mem hnodup', h.mem_iff]

/-- A variable makes no difference where its setting is given by an option. -/
theorem decisive_congr (h : ∀ s : Setting, given.lookup s = none →
      environment'.lookup s.variableName = environment.lookup s.variableName) (s : Setting) :
    s.decisive given environment' = s.decisive given environment := by
  rw [Setting.decisive, Setting.decisive, Setting.source, Setting.source]
  cases hlookup : given.lookup s with
  | some value => rw [Option.some_or, Option.some_or]
  | none => rw [h s hlookup]

/-- An argument or a variable for one setting decides no other one. -/
theorem decisive_of_ne (given : List (Setting × String)) (environment : List (String × String))
    {s t : Setting} (h : t ≠ s) (value : String) :
    s.decisive ((t, value) :: given) environment = s.decisive given environment ∧
      s.decisive given ((t.variableName, value) :: environment) = s.decisive given environment := by
  have hname : s.variableName ≠ t.variableName := fun heq =>
    h (Setting.variableName_injective heq).symm
  constructor
  · rw [Setting.decisive, Setting.source, List.lookup_cons, beq_false_of_ne h.symm]
    rfl
  · rw [Setting.decisive, Setting.source, List.lookup_cons, beq_false_of_ne hname]
    rfl

/-- Let arguments give each setting one value at most. Then reading succeeds exactly if every
setting can read its decisive text, which is the value of its option, else that of its variable,
else its usual text; and then every setting has the value in this text. The arguments may stand in
any order, and variables may have any values, or none, if they belong to no setting or to one that
an argument gives. An argument or a variable for another setting does not decide a setting, and
whatever becomes of the others, a setting with the same decisive text has the same value. -/
theorem read_decided_one_by_one (hnodup : (given.map Prod.fst).Nodup)
    (environment : List (String × String)) :
    DecidedBy (Settings.read (Setting.arguments given) environment)
      (fun s => s.decisive given environment) ∧
    (∀ given' : List (Setting × String), given'.Perm given →
      Settings.read (Setting.arguments given') environment
        = Settings.read (Setting.arguments given) environment) ∧
    (∀ environment' : List (String × String),
      (∀ s : Setting, given.lookup s = none →
        environment'.lookup s.variableName = environment.lookup s.variableName) →
      Settings.read (Setting.arguments given) environment'
        = Settings.read (Setting.arguments given) environment) ∧
    (∀ (s t : Setting) (value : String), t ≠ s →
      s.decisive ((t, value) :: given) environment = s.decisive given environment ∧
        s.decisive given ((t.variableName, value) :: environment)
          = s.decisive given environment) ∧
    ∀ (given' : List (Setting × String)) (environment' : List (String × String))
      (settings settings' : Settings) (s : Setting), (given'.map Prod.fst).Nodup →
      s.decisive given' environment' = s.decisive given environment →
      Settings.read (Setting.arguments given) environment = .ok settings →
      Settings.read (Setting.arguments given') environment' = .ok settings' →
      settings'.get s = settings.get s := by
  refine ⟨decidedBy_read hnodup environment, fun given' hperm => ?_, fun environment' h => ?_,
    fun s t value h => decisive_of_ne given environment h value, ?_⟩
  · refine read_congr hnodup ((hperm.map Prod.fst).nodup_iff.2 hnodup) fun s => ?_
    rw [Setting.decisive, Setting.source, lookup_eq_of_perm hnodup hperm]
    rfl
  · exact read_congr hnodup hnodup (decisive_congr h)
  · intro given' environment' settings settings' s hnodup' hs hread hread'
    have hdecided := decidedBy_read hnodup environment
    have hdecided' := decidedBy_read hnodup' environment'
    rw [hread] at hdecided
    rw [hread'] at hdecided'
    exact hdecided.get_eq hdecided' hs

/-- A time and an address are given by options, in one order or the other, and the level by its
variable; the variable of the address is unreadable, but the address is given. Without it the
program would not start. -/
theorem read_decided_one_by_one_unreadable :
    let given := [(Setting.timeout, "5"), (.bind, "127.0.0.1:8080")]
    let environment := [("BIND_ADDR", "nowhere"), ("LOG_LEVEL", "debug")]
    let settings : Settings := ⟨.v4 (.ofOctets 127 0 0 1) 8080, "http://localhost:9200",
      "movie_index", 5, "debug"⟩
    (given.map Prod.fst).Nodup ∧
      Settings.read (Setting.arguments given) environment = .ok settings ∧
      Settings.read (Setting.arguments given.reverse) environment = .ok settings ∧
      Settings.read (Setting.arguments given) [("LOG_LEVEL", "debug")] = .ok settings ∧
      Settings.read [] environment = .error .unreadableValue := by
  intro given environment settings
  have hnodup : (given.map Prod.fst).Nodup := by decide
  obtain ⟨hdecided, horder, hvariables, -⟩ := read_decided_one_by_one hnodup environment
  have hnothing : (([] : List (Setting × String)).map Prod.fst).Nodup := List.nodup_nil
  obtain ⟨hdefault, -⟩ := read_decided_one_by_one hnothing environment
  have hread : Settings.read (Setting.arguments given) environment = .ok settings :=
    (hdecided.ok_iff settings).2 fun s => by cases s <;> decide
  refine ⟨hnodup, hread, ?_, ?_, ?_⟩
  · rw [horder _ given.reverse_perm, hread]
  · rw [hvariables _ fun s => by cases s <;> decide, hread]
  · exact (hdefault.error_iff _).2 ⟨rfl, .bind, by decide⟩

end

end Settings

end MovieCatalog
