import Treatise.Proofs.Tool.Assignments
import Treatise.Proofs.Tool.Commands

/-!
# Which source of a value wins

The variables of a template come from the front matter, from the parts of the output, from the
configuration and from the command; options of the output format come from the last two. Of several
values of one key, that of the later source wins.

* **`later_sources_win`** — the variables and options, key by key, and what is reported.
-/

namespace Treatise

/-- The part of the output that a template finds under a key. -/
def Output.part? (o : Output) (key : String) : Option String :=
  if key = "content" then some o.content
  else if key = "toc" then some o.contents
  else if key = o.format.headingsKey then some o.headings
  else none

theorem Output.get?_variables (o : Output) (key : String) :
    o.variables.get? key = (o.part? key).or (o.values.get? key) := by
  have hcontent : o.format.headingsKey ≠ "content" := by cases o.format <;> decide
  have htoc : o.format.headingsKey ≠ "toc" := by cases o.format <;> decide
  rw [Output.variables, Dict.get?_insert, Dict.get?_insert, Dict.get?_insert, Output.part?]
  split
  · next h =>
    subst h
    rw [if_neg hcontent, if_neg htoc, Option.some_or]
  · next h =>
    -- the content was put in first, but no later key is the same
    by_cases hkey : key = "content"
    · subst hkey
      rfl
    · rw [if_neg hkey, if_neg hkey]
      split <;> rfl

/-- The variables of a template: assignments over the configuration, over the output, over the front
matter. -/
theorem overlays_variables (config : Config) (o : Output) (l : List String) :
    Overlays (config.variablesWith o.variables l).1 l fun key =>
      (config.substitutions.get? key).or ((o.part? key).or (o.values.get? key)) := by
  have hbelow : (o.variables.union config.substitutions).get? = fun key =>
      (config.substitutions.get? key).or ((o.part? key).or (o.values.get? key)) := by
    funext key
    rw [Dict.get?_union, Output.get?_variables]
  exact hbelow ▸ overlays_union _ l

theorem overlays_options (config : Config) (format : Option Format) (l : List String) :
    Overlays (config.optionsWith format l).1.render l config.options.render.get? :=
  overlays_union _ l

/-! ## The command -/

theorem readsOnly_load (path : Option String) : ReadsOnly (Config.load FileTree.files path) := by
  unfold Config.load
  refine ReadsOnly.bind (fun _ => rfl) fun present => ?_
  split
  · exact .pure _
  · refine (readsOnly_readText _).bind fun r => ?_
    cases r with
    | error e => exact .pure _
    | ok text =>
      dsimp only
      cases Config.parse? text.toList <;> exact .pure _

/-- A configuration is read from the named file, or else from the one with the default name. -/
theorem run_load {t : FileTree} {path : Option String} {text : String} {config : Config}
    (h : t.LeadsTo (path.getD Config.defaultName) (.file text.toUTF8))
    (hparse : Config.parse? text.toList = some config) :
    ((Config.load FileTree.files path).run t).1 = .ok config := by
  have hpresent : (path.isNone && !((FileTree.files.isFile Config.defaultName).run t).1) = false := by
    cases path with
    | none =>
      have hread : t.read Config.defaultName = .ok text.toUTF8 := h.read_file
      have hisFile : ((FileTree.files.isFile Config.defaultName).run t).1 = true := by
        show t.isFile Config.defaultName = true
        rw [FileTree.isFile, hread]
        rfl
      rw [hisFile]
      rfl
    | some path => rfl
  rw [Config.load, ReadsOnly.run_bind (fun _ => rfl), hpresent, if_neg Bool.false_ne_true,
    (readsOnly_readText _).run_bind, h.run_readText]
  dsimp only
  rw [hparse]
  rfl

theorem readsOnly_loadTemplate (path : Option String) :
    ReadsOnly (loadTemplate FileTree.files path) := by
  unfold loadTemplate
  cases path with
  | none => exact .pure _
  | some path =>
    refine (readsOnly_readText path).bind fun r => ?_
    cases r <;> exact .pure _

theorem exists_run_convertIn (directory : List Char) (o : Options) (source : String) (t : FileTree) :
    ∃ assets, ((convertIn FileTree.files directory o source).run t).1 =
      convert o assets source.toList 0 :=
  ⟨_, rfl⟩

theorem FileTree.run_write {t t' : FileTree} {path text : String} (h : t.write path text = .ok t') :
    (FileTree.files.write path text).run t = (.ok (), t') := by
  rw [FileTree.files, StateT.run_bind, StateT.run_get, pure_bind, h]
  rfl

namespace RenderCommand

variable (c : RenderCommand) {t : FileTree} {config : Config} {values : Dict String}

theorem readsOnly_result : ReadsOnly (c.result FileTree.files config values) := by
  rw [result]
  split
  · exact .pure _
  · refine (readsOnly_loadTemplate _).bind fun r => ?_
    cases r <;> exact .pure _

/-- What the command makes of variables: a template with their values, or a list of all of them. -/
def Makes (c : RenderCommand) (config : Config) (t : FileTree) (values : Dict String)
    (text : String) : Prop :=
  if c.json then text = variablesJson values
  else ∃ template,
    ((loadTemplate FileTree.files (c.template <|> config.template)).run t).1 = .ok template ∧
      text = Template.substitute template values

theorem run_result_of_makes {text : String} (h : c.Makes config t values text) :
    ((c.result FileTree.files config values).run t).1 = .ok text := by
  rw [result]
  rw [Makes] at h
  split at h
  · next hjson =>
    rw [if_pos hjson, h]
    rfl
  · next hjson =>
    obtain ⟨template, htemplate, rfl⟩ := h
    rw [if_neg hjson, (readsOnly_loadTemplate _).run_bind, htemplate]
    rfl

/-- A text is printed, or it is written to the file that is named. -/
theorem run_deliver (text stderr : String) (issues : List Issue) (t : FileTree) :
    ∃ o t', (c.deliver FileTree.files text stderr issues).run t = (o, t') ∧
      (c.output = none → o.stdout = text ++ "\n") ∧
      (∀ path, c.output = some path → ∀ t'', t.write path text = .ok t'' → t' = t'') ∧
      o.stderr = stderr ∧ o.issues = issues := by
  rw [deliver]
  cases c.output with
  | none => exact ⟨_, _, rfl, fun _ => rfl, nofun, rfl, rfl⟩
  | some path =>
    dsimp only
    rw [StateT.run_bind]
    generalize hrun : (FileTree.files.write path text).run t = written
    obtain ⟨result, t'⟩ := written
    have hwritten : ∀ path', some path = some path' →
        ∀ t'', t.write path' text = .ok t'' → t' = t'' := by
      rintro _ ⟨rfl⟩ t'' h
      exact congrArg Prod.snd (hrun.symm.trans (FileTree.run_write h))
    cases result with
    | error e => exact ⟨_, t', rfl, nofun, hwritten, rfl, rfl⟩
    | ok => exact ⟨_, t', rfl, nofun, hwritten, rfl, rfl⟩

/-- What a command does with a configuration and the output of the conversion. -/
structure Delivers (c : RenderCommand) (config : Config) (output : Output) (t : FileTree)
    (o : Outcome) (t' : FileTree) : Prop where
  /-- What is made of the variables is printed. -/
  printed : c.output = none → ∀ text,
    c.Makes config t (config.variablesWith output.variables c.substitutions).1 text →
      o.stdout = text ++ "\n"
  /-- If there is a file for it, it is written there. -/
  written : ∀ path, c.output = some path → ∀ text,
    c.Makes config t (config.variablesWith output.variables c.substitutions).1 text →
      ∀ t'', t.write path text = .ok t'' → t' = t''
  /-- There is one warning for each malformed substitution. -/
  stderr_eq : o.stderr = unlines ((c.substitutions.filter (IsMalformed ·)).map fun s =>
    substitutionWarning (.ofMalformed s))
  /-- There is one for each malformed option, before those of the conversion. -/
  issues_eq : o.issues = ((c.options.filter (IsMalformed ·)).map fun s =>
    (OptionError.ofMalformed s).toIssue 0) ++ output.issues

theorem run_delivers {source : String}
    (hconfig : ((Config.load FileTree.files c.config).run t).1 = .ok config)
    (hsource : ((FileTree.files.readText c.document).run t).1 = .ok source)
    (hast : c.ast = false) :
    ∃ assets o t', (c.run FileTree.files).run t = (o, t') ∧ c.Delivers config
      (convert (config.optionsWith c.format c.options).1 assets source.toList 0) t o t' := by
  have hsubstitutions (output : Output) :
      (config.variablesWith output.variables c.substitutions).2.map substitutionWarning =
        (c.substitutions.filter (IsMalformed ·)).map fun s =>
          substitutionWarning (.ofMalformed s) :=
    (congrArg _ (errors_readAssignments c.substitutions)).trans (List.map_map ..)
  have hoptions : (config.optionsWith c.format c.options).2.map (·.toIssue 0) =
      (c.options.filter (IsMalformed ·)).map fun s => (OptionError.ofMalformed s).toIssue 0 :=
    (congrArg _ (errors_readAssignments c.options)).trans (List.map_map ..)
  obtain ⟨assets, hconvert⟩ := exists_run_convertIn (Path.parent c.document.toList)
    (config.optionsWith c.format c.options).1 source t
  refine ⟨assets, ?_⟩
  -- up to the result the command only reads, so each step finds the same tree
  rw [RenderCommand.run, (readsOnly_load _).run_bind, hconfig]
  dsimp only
  rw [(readsOnly_readText _).run_bind, hsource]
  dsimp only
  rw [(readsOnly_convertIn _ _ _).run_bind, hconvert, if_neg (by simp [hast])]
  rw [c.readsOnly_result.run_bind, hsubstitutions, hoptions]
  cases hresult : ((c.result FileTree.files config _).run t).1 with
  | error f =>
    refine ⟨_, _, rfl, fun _ text hmakes => ?_, fun _ _ text hmakes => ?_, rfl, rfl⟩
    · rw [c.run_result_of_makes hmakes] at hresult
      cases hresult
    · rw [c.run_result_of_makes hmakes] at hresult
      cases hresult
  | ok result =>
    obtain ⟨o, t', hrun, hprinted, hwritten, hstderr, hissues⟩ := c.run_deliver result _ _ t
    refine ⟨o, t', hrun, fun hout text hmakes => ?_, fun path hout text hmakes => ?_, hstderr,
      hissues⟩
    · rw [c.run_result_of_makes hmakes] at hresult
      rw [hprinted hout, Except.ok.inj hresult]
    · rw [c.run_result_of_makes hmakes] at hresult
      rw [Except.ok.inj hresult]
      exact hwritten path hout

end RenderCommand

/-- Of the sources of a variable or an option, the command wins over the configuration, this one over
the parts of the output, and these over the front matter. Malformed assignments are reported and have no
influence. -/
theorem later_sources_win (c : RenderCommand) (config : Config) (source : String)
    (assets : AssetProbe) (fileId : Nat) :
    let options := (config.optionsWith c.format c.options).1
    let output := convert options assets source.toList fileId
    let front := FrontMatter.split Toml.parse? output.source
    let values := (config.variablesWith output.variables c.substitutions).1
    Overlays values c.substitutions (fun key =>
      (config.substitutions.get? key).or ((output.part? key).or (front.values.get? key))) ∧
    Overlays options.render c.options config.options.render.get? ∧
    (config.variablesWith output.variables c.substitutions).2 =
      (c.substitutions.filter (IsMalformed ·)).map .ofMalformed ∧
    (config.optionsWith c.format c.options).2 =
      (c.options.filter (IsMalformed ·)).map .ofMalformed ∧
    (config.variablesWith output.variables (c.substitutions.filter fun s => ¬IsMalformed s)).1 =
      values ∧
    (config.optionsWith c.format (c.options.filter fun s => ¬IsMalformed s)).1 = options ∧
    ∀ t : FileTree, ((Config.load FileTree.files c.config).run t).1 = .ok config →
      ((FileTree.files.readText c.document).run t).1 = .ok source → c.ast = false →
      ∃ assets o t', (c.run FileTree.files).run t = (o, t') ∧
        c.Delivers config (convert options assets source.toList 0) t o t' := by
  intro options output front values
  refine ⟨overlays_variables config output c.substitutions,
    overlays_options config c.format c.options, errors_readAssignments c.substitutions,
    errors_readAssignments c.options, ?_, ?_, fun t => c.run_delivers⟩
  · exact congrArg (output.variables.union config.substitutions).union
      (readAssignments_filter c.substitutions)
  · exact congrArg (fun render => { config.options with
      format := c.format.getD config.options.format
      render := config.options.render.union render }) (readAssignments_filter c.options)

/-- A title is given by the configuration and by the command, an author only by the configuration. -/
theorem later_sources_win_over_a_configuration :
    let settings := "[substitutions]\nauthor = \"File\"\ntitle = \"File\"\n"
    let source := "---\nyear = 2024\ntitle = \"Front\"\n---\nBody."
    let t := FileTree.directory [("mdt.toml", .file settings.toUTF8), ("d.md", .file source.toUTF8)]
    let c : RenderCommand :=
      { document := "d.md", format := none, template := none, output := none, options := []
        substitutions := ["oops", "title = a=b "], config := none, json := true, ast := false }
    ∃ config output o t', (c.run FileTree.files).run t = (o, t') ∧
      c.Delivers config output t o t' ∧
      (config.variablesWith output.variables c.substitutions).1.get? "title" = some "a=b" ∧
      (config.variablesWith output.variables c.substitutions).1.get? "author" = some "File" := by
  intro settings source t c
  obtain ⟨config, hparse⟩ := Option.isSome_iff_exists.1
    (by decide +kernel : (Config.parse? settings.toList).isSome = true)
  have hauthor : config.substitutions.get? "author" = some "File" := by
    have hget : ((Config.parse? settings.toList).bind fun config =>
      config.substitutions.get? "author") = some "File" := by decide +kernel
    rwa [hparse] at hget
  have hsettings : t.LeadsTo "mdt.toml" (.file settings.toUTF8) :=
    ⟨["mdt.toml"], by decide +kernel, rfl⟩
  have hsource : t.LeadsTo "d.md" (.file source.toUTF8) := ⟨["d.md"], by decide +kernel, rfl⟩
  obtain ⟨-, -, -, -, -, -, hrun⟩ := later_sources_win c config source (fun _ => false) 0
  obtain ⟨assets, o, t', ho, hdelivers⟩ := hrun t (run_load hsettings hparse) hsource.run_readText rfl
  obtain ⟨hvalues, -⟩ := later_sources_win c config source assets 0
  refine ⟨config, _, o, t', ho, hdelivers, ?_, ?_⟩
  · refine (hvalues "title" "a=b").2 (.inl ⟨["oops"], "title = a=b ", [], rfl, ?_, by simp⟩)
    exact readAssignment_eq_ok_iff.1 (by decide +kernel)
  · refine (hvalues "author" "File").2 (.inr ⟨?_, by dsimp only; rw [hauthor, Option.some_or]⟩)
    exact get?_readAssignments_eq_none.1 (by decide +kernel)

end Treatise
