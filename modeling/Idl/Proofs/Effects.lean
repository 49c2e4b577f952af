import Idl.Proofs.Composition
import Idl.Run

/-!
# What a run leaves behind

The plan of a request is made when all its text has been rendered. So a run that fails, be it over
the method it declares or over the file it writes, leaves the directory as it was and prints
nothing. A run that succeeds has one effect: it prints the text, or makes it the content of one
file. The process performs the same plan and then complains, if something has gone wrong.
-/

namespace Idl

namespace Directory

variable {d d' : Directory} {path name text : String} {e : FileError}

/-- From `d` to `d'` the file gets the text as its content, and all others are as they were. -/
structure Replaced (d : Directory) (name text : String) (d' : Directory) : Prop where
  content?_eq : d'.content? name = some text
  others : ∀ other, other ≠ name → d'.content? other = d.content? other

theorem lookup_filter_of_ne {files : List (String × String)} {other : String}
    (h : other ≠ name) :
    (files.filter fun file => file.1 != name).lookup other = files.lookup other := by
  induction files with
  | nil => rfl
  | cons file rest ih =>
    obtain ⟨key, content⟩ := file
    by_cases hkey : key = name
    · have hother : (other == key) = false := beq_eq_false_iff_ne.2 (hkey ▸ h)
      rw [List.filter_cons_of_neg (by simp [hkey]), ih, List.lookup_cons, hother]
    · rw [List.filter_cons_of_pos (by simp [hkey]), List.lookup_cons, List.lookup_cons, ih]

theorem write_of_place_error (h : d.place path = .error e) (text : String) :
    d.write path text = .error e := by
  rw [write, h]
  rfl

theorem exists_write_of_place (h : d.place path = .ok name) (text : String) :
    ∃ d', d.write path text = .ok d' ∧ d.Replaced name text d' := by
  refine ⟨_, by rw [write, h]; rfl, ?_, fun other hother => ?_⟩
  · exact List.lookup_cons_self
  · rw [content?, List.lookup_cons, beq_eq_false_iff_ne.2 hother]
    exact lookup_filter_of_ne hother

end Directory

namespace Request

variable {r : Request} {d d' : Directory} {text path : String} {f : Failure}

/-- The plan of a request has one effect. -/
theorem run_of_effect {effect : Effect} (h : r.effect = .ok effect) (d : Directory) :
    r.run d =
      let after := (Surroundings.untouched d).after effect
      ⟨after.2.directory, after.2.printed, after.1.map .file⟩ := by
  rw [run, plan, h]
  rfl

theorem run_of_render_error (h : r.render = .error f) (d : Directory) :
    r.run d = ⟨d, "", some f⟩ := by
  have heffect : r.effect = .error f := by
    rw [effect, h]
    rfl
  rw [run, plan, heffect]
  rfl

theorem run_of_print (h : r.render = .ok text) (houtput : r.output = none) (d : Directory) :
    r.run d = ⟨d, text, none⟩ := by
  have heffect : r.effect = .ok (.print text) := by
    rw [effect, h, houtput]
    rfl
  rw [run_of_effect heffect]
  change Outcome.mk d ("" ++ text) none = _
  rw [String.empty_append]

theorem effect_of_output (h : r.render = .ok text) (houtput : r.output = some path) :
    r.effect = .ok (.write path text) := by
  rw [effect, h, houtput]
  rfl

theorem run_of_write_error {e : FileError} (h : r.render = .ok text)
    (houtput : r.output = some path) (hwrite : d.write path text = .error e) :
    r.run d = ⟨d, "", some (.file e)⟩ := by
  have hafter : (Surroundings.untouched d).after (.write path text) = (some e, .untouched d) := by
    simp only [Surroundings.after, Surroundings.untouched, hwrite]
  rw [run_of_effect (effect_of_output h houtput), hafter]
  rfl

theorem run_of_write (h : r.render = .ok text) (houtput : r.output = some path)
    (hwrite : d.write path text = .ok d') : r.run d = ⟨d', "", none⟩ := by
  have hafter : (Surroundings.untouched d).after (.write path text) = (none, .untouched d') := by
    simp only [Surroundings.after, Surroundings.untouched, hwrite]
  rw [run_of_effect (effect_of_output h houtput), hafter]
  rfl

/-- No effect of a request is a complaint. -/
theorem complaint_simulate_plan (r : Request) (d : Directory) :
    (r.plan.simulate (.untouched d)).2.complaint = none := by
  cases hrender : r.render with
  | error f =>
    rw [plan, effect, hrender]
    rfl
  | ok text =>
    rw [plan, effect, hrender]
    cases r.output with
    | none => rfl
    | some path =>
      change ((Surroundings.untouched d).after (.write path text)).2.complaint = none
      rw [Surroundings.after]
      split <;> rfl

theorem simulate_ofArguments {arguments : List String}
    (h : Request.ofArguments arguments = .ok r) (d : Directory) :
    (Plan.ofArguments arguments).simulate (.untouched d) =
      match r.plan.simulate (.untouched d) with
      | (none, w) => (0, w)
      | (some f, w) => (1, (w.after (.complain f.errorLine)).2) := by
  rw [Plan.ofArguments, h]
  change (r.plan.bind _).simulate _ = _
  rw [Plan.simulate_bind]
  rcases r.plan.simulate (.untouched d) with ⟨_ | f, w⟩ <;> rfl

/-- The process does what the run does, and then complains of the failure, if there is one. -/
theorem exit_of_request {arguments : List String} (h : Request.ofArguments arguments = .ok r)
    (d : Directory) :
    let exit := Exit.ofArguments arguments d
    exit.directory = (r.run d).directory ∧ exit.printed = (r.run d).printed ∧
      match (r.run d).failure with
      | none => exit.code = 0 ∧ exit.complaint = none
      | some f => exit.code = 1 ∧ exit.complaint = some f.errorLine := by
  have hcomplaint := r.complaint_simulate_plan d
  unfold Exit.ofArguments run
  rw [simulate_ofArguments h]
  generalize r.plan.simulate (.untouched d) = simulated at hcomplaint ⊢
  rcases simulated with ⟨_ | f, w⟩
  · exact ⟨rfl, rfl, rfl, hcomplaint⟩
  · refine ⟨rfl, rfl, rfl, ?_⟩
    change some (w.complaint.getD "" ++ f.errorLine) = _
    rw [hcomplaint]
    exact congrArg some String.empty_append

/-- A run does all or nothing. If it fails, in rendering or in writing, the directory is as it was
and nothing is printed. If not, the text is the content of the one file that was asked for, or it is
printed. The process reports success exactly for a run that does not fail. -/
theorem run_does_all_or_nothing (d : Directory) :
    (∀ r : Request, match (r.run d).failure with
      | some f => (r.run d).directory = d ∧ (r.run d).printed = "" ∧
        (∀ misuse, f ≠ .misuse misuse) ∧
        (r.render = .error f ∨ ∃ text path e, r.render = .ok text ∧ r.output = some path ∧
          d.place path = .error e ∧ f = .file e)
      | none => ∃ text, r.render = .ok text ∧
        match r.output with
        | some path => ∃ name, d.place path = .ok name ∧
          d.Replaced name text (r.run d).directory ∧ (r.run d).printed = ""
        | none => (r.run d).directory = d ∧ (r.run d).printed = text) ∧
    ∀ arguments, match Request.ofArguments arguments with
      | .ok r =>
        let exit := Exit.ofArguments arguments d
        (exit.code = 0 ↔ (r.run d).failure = none) ∧
          exit.directory = (r.run d).directory ∧ exit.printed = (r.run d).printed
      | .error _ => (Exit.ofArguments arguments d).directory = d := by
  refine ⟨fun r => ?_, fun arguments => ?_⟩
  · cases hrender : r.render with
    | error f =>
      rw [run_of_render_error hrender]
      exact ⟨rfl, rfl, fun misuse hf => r.render_ne_misuse misuse (hf ▸ hrender), .inl rfl⟩
    | ok text =>
      cases houtput : r.output with
      | none =>
        rw [run_of_print hrender houtput]
        exact ⟨text, rfl, rfl, rfl⟩
      | some path =>
        cases hplace : d.place path with
        | error e =>
          rw [run_of_write_error hrender houtput (Directory.write_of_place_error hplace text)]
          exact ⟨rfl, rfl, nofun, .inr ⟨text, path, e, rfl, rfl, hplace, rfl⟩⟩
        | ok name =>
          obtain ⟨d', hwrite, hreplaced⟩ := Directory.exists_write_of_place hplace text
          rw [run_of_write hrender houtput hwrite]
          exact ⟨text, rfl, name, hplace, hreplaced, rfl⟩
  · cases harguments : Request.ofArguments arguments with
    | error e =>
      change (Exit.ofArguments arguments d).directory = d
      rw [Exit.ofArguments, Plan.ofArguments, harguments]
      rfl
    | ok r =>
      obtain ⟨hdirectory, hprinted, hcode⟩ := exit_of_request harguments d
      refine ⟨?_, hdirectory, hprinted⟩
      cases hfailure : (r.run d).failure with
      | none =>
        rw [hfailure] at hcode
        exact iff_of_true hcode.1 rfl
      | some f =>
        rw [hfailure] at hcode
        exact iff_of_false (fun hzero => absurd (hcode.1.symm.trans hzero) (by decide)) nofun

/-- A method that is refused for its last annotation leaves no file behind. -/
example :
    let r : Request := { Request.blank with
      name := some "fire", annotations := ["entry", "1st"], output := some "broken.h" }
    (r.run .empty).directory.files = [] ∧ (r.run .empty).printed = "" ∧
      (r.run .empty).failure = some (.semantic (.inMethod "fire" r.methodLocation
        (.annotationRejected "1st" "name is not an identifier"))) := by
  decide

end Request
end Idl
