import Rulebook.Proofs.Fallible
import Rulebook.Proofs.Settings.Layers
import Rulebook.Proofs.Settings.Sections
import Rulebook.Proofs.Text.Decimal
import Rulebook.Settings.Load

/-!
# What is loaded

Each setting that is loaded is that of the last layer that sets it, and is its default if no layer
does (`Settings.load_settles`). The layers are the three files and the variables, where a file of
variables counts only for what the process has not set (`Dotenv.assign_eq_append`). Only the port of
the server may come from yet another variable, which counts if it is a number below 65536
(`IsPort`).

This is so for all contents of the files and of the variables, as long as none of their entries
makes a section something else than a table (`KeepsSections`). A layer sets what it leads to when it
is laid over nothing, so which layer settles one setting has nothing to do with any other setting:
to set one key of a section leaves the others to the layers below.
-/

namespace Rulebook

/-! ### Files of variables -/

namespace Dotenv

/-- The assignments on lines up to the first broken one, each read with the variables that are set
when it is reached. -/
def assignments (vs : Variables) : List (List Char) → List (String × String)
  | [] => []
  | l :: ls =>
    match assignment? vs l with
    | none => []
    | some none => assignments vs ls
    | some (some (name, value)) => (name, value) :: assignments (vs.setNew name value) ls

/-- Lines add those variables that are not set, each with the value of its first assignment, and
change none. -/
theorem assign_eq_append (vs : Variables) (ls : List (List Char)) :
    ∃ added, assign vs ls = vs ++ added ∧ (Entries.names added).Nodup ∧ ∀ name value,
      (name, value) ∈ added ↔
        vs.get? name = none ∧ Entries.find? name (assignments vs ls) = some value := by
  have hnothing : ∀ vs : Variables, ∃ added, vs = vs ++ added ∧
      (Entries.names added).Nodup ∧ ∀ name value, (name, value) ∈ added ↔
        vs.get? name = none ∧ Entries.find? name ([] : List (String × String)) = some value :=
    fun vs => ⟨[], (List.append_nil vs).symm, List.nodup_nil, fun _ _ => ⟨nofun, nofun⟩⟩
  induction ls generalizing vs with
  | nil => exact hnothing vs
  | cons l ls ih =>
    rw [assign, assignments]
    cases assignment? vs l with
    -- a broken line ends the file
    | none => exact hnothing vs
    | some o =>
      cases o with
      | none => exact ih vs
      | some e =>
        obtain ⟨name, value⟩ := e
        dsimp only
        -- the lines behind are read with the variable set
        obtain ⟨added, hadded, hnodup, hmem⟩ := ih (vs.setNew name value)
        rw [hadded]
        by_cases hset : vs.get? name = none
        · -- the variable is set here, and added in front
          have hnew : vs.setNew name value = vs ++ [(name, value)] := by
            rw [Variables.setNew, hset]
            rfl
          have hget : ∀ n, (vs ++ [(name, value)] : Variables).get? n = none ↔
              vs.get? n = none ∧ name ≠ n := fun n => by
            rw [Variables.get?, Entries.find?_append, Entries.find?_cons, Option.or_eq_none_iff]
            simp [Variables.get?]
          rw [hnew] at hmem ⊢
          refine ⟨(name, value) :: added, by simp, List.nodup_cons.2 ⟨fun hmem' => ?_, hnodup⟩,
            fun n v => ?_⟩
          · obtain ⟨e, he, hename⟩ := List.mem_map.1 hmem'
            exact ((hget e.1).1 ((hmem e.1 e.2).1 he).1).2 hename.symm
          · rw [List.mem_cons, hmem, hget, Entries.find?_cons, Prod.mk.injEq]
            by_cases hn : name = n
            · subst hn
              simp [hset, eq_comm]
            · simp [hn, Ne.symm hn]
        · -- the variable is set already
          have hold : vs.setNew name value = vs := by
            rw [Variables.setNew, if_pos (Option.isSome_iff_ne_none.2 hset)]
          rw [hold] at hmem ⊢
          refine ⟨added, rfl, hnodup, fun n v => ?_⟩
          rw [hmem, Entries.find?_cons]
          refine and_congr_right fun hnone => ?_
          have hne : name ≠ n := fun hn => hset (hn ▸ hnone)
          rw [if_neg hne]

end Dotenv

/-! ### What is loaded -/

/-- A leaf has what the last of the layers that sets it sets it to, and the default if none does. -/
def Leaf.SettledBy (l : Leaf) (layers : List (List (String × Setting))) (default a : l.Carrier) :
    Prop :=
  (∃ v, Setting.LastSets l.path layers v ∧ l.convert v = some a) ∨
    ((∀ es ∈ layers, Setting.sets? l.path es = none) ∧ a = default)

/-- What a leaf has before any layer: the names of the service and of its environment, and else what
is built in. -/
def Leaf.default (service environment : String) : (l : Leaf) → l.Carrier
  | .service => service
  | .environment => environment
  | l => l.get {}

/-- Each leaf is read from a single setting. -/
theorem Leaf.readsSingle (l : Leaf) : Setting.ReadsSingle l.convert := by
  cases l with
  | service | environment | host | url | level => exact Setting.readsSingle_toText?
  | port => exact Setting.readsSingle_toNatBelow? _
  | maxConnections | minConnections => exact Setting.readsSingle_toNatBelow? _
  | connectTimeout | idleTimeout => exact Setting.readsSingle_toNatBelow? _
  | store => exact Setting.readsSingle_toNamed? _
  | json => exact Setting.readsSingle_toFlag?

namespace Settings

/-- The names of the sections. -/
def sectionNames : List String := ["server", "database", "observability"]

/-- The leaves that stand in a section stand in one of these. -/
theorem dropLast_path_subset (l : Leaf) : l.path.dropLast ⊆ sectionNames := by
  cases l <;> decide

/-- No entry of a layer makes a section anything but a table. -/
def Surroundings.KeepsSections (service : String) (w : Surroundings) : Prop :=
  ∀ ls, layers service w = .ok ls → ∀ es ∈ ls, ∀ e ∈ es, ∀ name ∈ sectionNames,
    Setting.KeepsSection name e

instance (service : String) (w : Surroundings) : Decidable (w.KeepsSections service) :=
  match h : layers service w with
  | .ok ls => decidable_of_iff (∀ es ∈ ls, ∀ e ∈ es, ∀ name ∈ sectionNames,
      Setting.KeepsSection name e)
    ⟨fun hls _ hls' => by cases h.symm.trans hls'; exact hls, fun hw => hw ls h⟩
  | .error _ => .isTrue fun _ hls => nomatch h.symm.trans hls

/-- The assignments of the file `.env`. -/
def Surroundings.assigned (w : Surroundings) : List (String × String) :=
  match w.file ".env" with
  | some text => Dotenv.assignments w.process
      (Dotenv.joinLines [] .plain (Dotenv.rawLines (Dotenv.dropMark text.toList)))
  | none => []

/-- The lowest layer makes just the names. -/
theorem layer_names (service environment : String) :
    Setting.layer (.table []) (names service environment) =
      .table (names service environment) := by
  have hservice : Setting.pathOf? "service_name" = some [.key "service_name"] := by decide
  have henvironment : Setting.pathOf? "environment" = some [.key "environment"] := by decide
  simp [Setting.layer, names, Setting.putEntry, hservice, henvironment, Setting.put, Setting.change,
    Setting.overlay, Setting.entries, Entries.set]

/-- The variables are those of the process, followed by those that only the file `.env` sets. -/
theorem allVariables_eq_append (w : Surroundings) :
    ∃ added, w.allVariables = w.process ++ added ∧ (Entries.names added).Nodup ∧ ∀ name value,
      (name, value) ∈ added ↔
        w.process.get? name = none ∧ Entries.find? name w.assigned = some value := by
  unfold Surroundings.allVariables Surroundings.assigned
  cases w.file ".env" with
  | some text => exact Dotenv.assign_eq_append _ _
  | none => exact ⟨[], (List.append_nil _).symm, List.nodup_nil, fun _ _ => ⟨nofun, nofun⟩⟩

/-- Entries that keep the section of a leaf keep what is on the way to the leaf. -/
theorem keepsTables_path {e : String × Setting} (l : Leaf)
    (h : ∀ name ∈ l.path.dropLast, Setting.KeepsSection name e) :
    Setting.KeepsTables l.path (Setting.stepsOf e.1) e.2 := by
  cases l with
  | service | environment | store => exact Setting.keepsTables_singleton _ e
  | _ => exact (h _ List.mem_cons_self).keepsTables _

/-- What layers over the names stand for has every leaf from the last layer that sets it. -/
theorem settledBy_of_ofTable? {service environment : String} {s : Settings}
    {ls : List (List (String × Setting))} (l : Leaf)
    (hkeeps : ∀ es ∈ ls, ∀ e ∈ es, ∀ name ∈ l.path.dropLast, Setting.KeepsSection name e)
    (h : ofTable? (ls.foldl Setting.layer (.table (names service environment))) = some s) :
    l.SettledBy ls (l.default service environment) (l.get s) := by
  have hbase : ∀ name ∈ l.path.dropLast,
      ∀ x ∈ Setting.at? [name] (.table (names service environment)), x.IsTable := by
    intro name hname x hx
    cases l <;> simp [Leaf.path] at hname <;> subst hname <;> cases hx
  -- the section of the leaf is a table below the layers, and all layers keep it one
  have htable : ∀ name ∈ l.path.dropLast, ∀ x ∈ Setting.at? [name]
      (ls.foldl Setting.layer (.table (names service environment))), x.IsTable :=
    fun name hname => Setting.isTable_layers (fun es hes e he => hkeeps es hes e he name hname)
      (hbase name hname)
  obtain ⟨root, hroot⟩ := Setting.exists_layers_eq_table ls (names service environment)
  have hreads : Setting.ReadsAt l.convert (l.get {})
      (Setting.at? l.path (ls.foldl Setting.layer (.table (names service environment))))
      (l.get s) := by
    rw [hroot] at h htable ⊢
    exact readsAt_of_ofTable? l htable h
  have hpath : l.path ≠ [] := by cases l <;> exact List.cons_ne_nil _ _
  rcases Setting.lastSets_of_layers hpath l.readsSingle
    (fun es hes e he => keepsTables_path l (hkeeps es hes e he))
    (fun r hr => by rw [hr] at hreads; exact hreads) with hset | ⟨hnone, hbelow⟩
  · exact .inl hset
  · -- nothing is set, so only the names are there
    refine .inr ⟨hnone, ?_⟩
    rw [← hbelow] at hreads
    cases l with
    | service | environment => exact (Option.some.inj hreads).symm
    | _ => exact hreads

/-- The settings with the port that the variable of the service sets, if it sets one. -/
def withPort (s : Settings) (port? : Option Nat) : Settings :=
  match port? with
  | some port => { s with server := { s.server with port } }
  | none => s

/-- What is loaded is what all layers together stand for, with the port of the service. -/
theorem load_eq_ok {service : String} {w : Surroundings} {s : Settings}
    (h : load service w = .ok s) :
    ∃ ls s₀, layers service w = .ok ls ∧
      ofTable? (ls.foldl Setting.layer (.table [])) = some s₀ ∧
      s = s₀.withPort (servicePort? w.allVariables service) := by
  obtain ⟨ls, hls, h⟩ := bind_eq_ok_iff.1 h
  cases hs : ofTable? (ls.foldl Setting.layer (.table [])) with
  -- without a port in the variable all is left as it is
  | none =>
    rw [hs] at h
    cases h
  | some s₀ =>
    rw [hs] at h
    refine ⟨ls, s₀, hls, hs, ?_⟩
    cases hport : servicePort? w.allVariables service with
    | none =>
      rw [hport] at h
      cases h
      rfl
    | some port =>
      rw [hport] at h
      cases h
      rfl

/-- The layers are the names, the three files and the variables. -/
theorem layers_eq_ok {service : String} {w : Surroundings} {ls : List (List (String × Setting))}
    (h : layers service w = .ok ls) :
    ∃ common ofEnvironment ofService,
      readFile w (folderOf w.allVariables) "default" = .ok common ∧
      readFile w (folderOf w.allVariables) (environmentOf w.allVariables) = .ok ofEnvironment ∧
      readFile w (folderOf w.allVariables) service = .ok ofService ∧
      ls = [names service (environmentOf w.allVariables), common, ofEnvironment, ofService,
        w.allVariables.settings] := by
  obtain ⟨common, hcommon, h⟩ := bind_eq_ok_iff.1 h
  obtain ⟨ofEnvironment, henvironment, h⟩ := bind_eq_ok_iff.1 h
  obtain ⟨ofService, hservice, h⟩ := bind_eq_ok_iff.1 h
  cases h
  exact ⟨common, ofEnvironment, ofService, hcommon, henvironment, hservice, rfl⟩

/-- The variable of the service changes the port and nothing else. -/
theorem get_withPort {l : Leaf} {s : Settings} {port? : Option Nat}
    (h : l = .port → port? = none) : l.get (s.withPort port?) = l.get s := by
  cases port? with
  | none => rfl
  | some port =>
    cases l with
    -- of the port nothing is said if the variable has one
    | port => exact nomatch h rfl
    | _ => rfl

/-- The text is a numeral, perhaps with a plus sign in front, that is worth a number which a port
may have. -/
def IsPort (text : String) (port : Nat) : Prop :=
  port < 65536 ∧ ∃ d, Text.IsNumeral d ∧ Text.worth d = port ∧ (text = d ∨ text = "+" ++ d)

/-- The variables set the port of a service if the variable of the service is a port. -/
theorem servicePort?_eq_some_iff {vs : Variables} {service : String} {port : Nat} :
    servicePort? vs service = some port ↔
      ∃ text, vs.get? (portVariable service) = some text ∧ IsPort text port := by
  rw [servicePort?, Option.bind_eq_bind, Option.bind_eq_some_iff]
  exact exists_congr fun text => and_congr_right fun _ => Text.natBelow?_eq_some_iff

/-- Files that set the host for all, and the port for one environment, and a file `.env` that sets
other variables than the process. -/
def sampleFile (name : String) : Option String :=
  Entries.find? name
    [("config/default.toml", "storage = \"memory\"\n[server]\nhost = \"a\"\nport = 1\n"),
     ("config/production.toml", "[server]\nport = 2\n"),
     (".env", "RULES_ENV=test\nRULE_API_PORT=7\nRULES_DATABASE__URL=db\n")]

/-- The process names the environment, and sets the port in two variables. -/
def sampleSurroundings (port : String) : Surroundings :=
  ⟨[("RULES_ENV", "production"), ("RULE_API_PORT", port), ("RULES_SERVER__PORT", "9000")],
    sampleFile⟩

/-- What is loaded, with one port or another. -/
def sampleSettings (port : Nat) : Settings :=
  ⟨"rule-api-service", "production", .memory, ⟨"a", port⟩, { url := "db" }, {}⟩

end Settings

end Rulebook
