import MazeDuel.Proofs.Match.Accepted
/-!
Settings that are written and read again. Reading keeps every number, name and script as it was
given and fills in what was not. What it looks at is written down by the settings themselves, so the
same settings are read from what they write.
-/

namespace MazeDuel

namespace MatchConfig

open Turn

/-- The numbers of some settings, each under its name. -/
def numbers (c : MatchConfig) : List (String × Json) := [
  ("width", c.width.toJson),
  ("height", c.height.toJson),
  ("seed", c.seed),
  ("step_delay", c.timing.stepDelay.toJson),
  ("continuous_turn_delay", c.timing.turnDelay.toJson),
  ("edit_time_limit", c.timing.editLimit.toJson),
  ("timer_tick", c.timing.tick.toJson),
  ("shot_damage", c.shotDamage.toJson),
  ("max_health", c.maxHealth.toJson),
  ("powerups_per_type", Json.ofOption Quantity.toJson c.powerupsPerType)]

/-- The numbers of a match that nothing is asked of. -/
def defaultNumbers : List (String × Json) := [
  ("width", .whole 10),
  ("height", .whole 10),
  ("seed", .null),
  ("step_delay", .real 0.25),
  ("continuous_turn_delay", .real 0.15),
  ("edit_time_limit", .real 30),
  ("timer_tick", .real 0.1),
  ("shot_damage", .whole 20),
  ("max_health", .whole 100),
  ("powerups_per_type", .null)]

/-- The numbers that a section gives, with the default of each that it does not give. -/
def numbersIn (data : Json) : List (String × Json) :=
  defaultNumbers.map fun entry => (entry.1, data.findD entry.1 entry.2)

/-- What is found out of all numbers of settings that are accepted. -/
structure Admitted (c : MatchConfig) : Prop extends c.InRange where
  stepDelay : c.timing.stepDelay.below 0 = false
  turnDelay : c.timing.turnDelay.below 0 = false
  editLimit : c.timing.editLimit.atMost 0 = false
  tick : c.timing.tick.atMost 0 = false

theorem setting_eq_ok_iff {value : Json} {bad : Quantity → Bool} {fault : Fault} {q : Quantity} :
    setting value bad fault = .ok q ↔ q.toJson = value ∧ bad q = false := by
  constructor
  · intro h
    refine ⟨?_, setting_ok h⟩
    obtain ⟨read, hread, h⟩ := exists_ok_of_bind h
    split at h
    · cases h
    · rw [← Except.ok.inj h]
      exact Json.toQuantity_eq_ok_iff.mp hread
  · rintro ⟨hvalue, hgood⟩
    unfold setting
    rw [Json.toQuantity_eq_ok_iff.mpr hvalue]
    show (if bad q = true then _ else _) = _
    rw [hgood]
    rfl

theorem numbers_eq_iff {data : Json} {c : MatchConfig} : c.numbers = numbersIn data ↔
    c.width.toJson = data.findD "width" (.whole 10) ∧
    c.height.toJson = data.findD "height" (.whole 10) ∧
    c.seed = data.findD "seed" .null ∧
    c.timing.stepDelay.toJson = data.findD "step_delay" (.real 0.25) ∧
    c.timing.turnDelay.toJson = data.findD "continuous_turn_delay" (.real 0.15) ∧
    c.timing.editLimit.toJson = data.findD "edit_time_limit" (.real 30) ∧
    c.timing.tick.toJson = data.findD "timer_tick" (.real 0.1) ∧
    c.shotDamage.toJson = data.findD "shot_damage" (.whole 20) ∧
    c.maxHealth.toJson = data.findD "max_health" (.whole 100) ∧
    Json.ofOption Quantity.toJson c.powerupsPerType = data.findD "powerups_per_type" .null := by
  simp only [numbers, numbersIn, defaultNumbers, List.map_cons, List.map_nil, List.cons.injEq,
    Prod.mk.injEq, true_and, and_true]

/-- The settings that are read from a section have its numbers, and these are in range. -/
theorem of_readSettings {data : Json} {names : List (Player × Json)} {scripts : Duo Json}
    {c : MatchConfig} (h : readSettings data names scripts = .ok c) :
    c.numbers = numbersIn data ∧ c.Admitted ∧ c.names = names ∧ c.scripts = scripts := by
  have hrange := inRange_readSettings h
  obtain ⟨width, hwidth, h⟩ := exists_ok_of_bind h
  obtain ⟨height, hheight, h⟩ := exists_ok_of_bind h
  obtain ⟨stepDelay, hstep, h⟩ := exists_ok_of_bind h
  obtain ⟨turnDelay, hturn, h⟩ := exists_ok_of_bind h
  obtain ⟨editLimit, hedit, h⟩ := exists_ok_of_bind h
  obtain ⟨tick, htick, h⟩ := exists_ok_of_bind h
  obtain ⟨damage, hdamage, h⟩ := exists_ok_of_bind h
  obtain ⟨health, hhealth, h⟩ := exists_ok_of_bind h
  rw [setting_eq_ok_iff] at hwidth hheight hstep hturn hedit htick hdamage hhealth
  have hread (pickups : Option Quantity)
      (heach : Json.ofOption Quantity.toJson pickups = data.findD "powerups_per_type" .null)
      (hc : c = ⟨width, height, data.findD "seed" .null, ⟨stepDelay, turnDelay, editLimit, tick⟩,
        damage, health, pickups, names, scripts⟩) :
      c.numbers = numbersIn data ∧ c.Admitted ∧ c.names = names ∧ c.scripts = scripts := by
    subst hc
    refine ⟨numbers_eq_iff.mpr ?_, ⟨hrange, hstep.2, hturn.2, hedit.2, htick.2⟩, rfl, rfl⟩
    exact ⟨hwidth.1, hheight.1, rfl, hstep.1, hturn.1, hedit.1, htick.1, hdamage.1, hhealth.1,
      heach⟩
  split at h
  · next hnull => exact hread none hnull.symm (Except.ok.inj h).symm
  · obtain ⟨pickups, hpickups, h⟩ := exists_ok_of_bind h
    obtain ⟨q, hq, hsome⟩ := exists_ok_of_bind hpickups
    obtain rfl := Except.ok.inj hsome
    exact hread (some q) (setting_eq_ok_iff.mp hq).1 (Except.ok.inj h).symm

/-- Settings in range are read from every section that has their numbers. -/
theorem readSettings_eq_ok {data : Json} {c : MatchConfig} (hnumbers : c.numbers = numbersIn data)
    (hc : c.Admitted) : readSettings data c.names c.scripts = .ok c := by
  obtain ⟨hwidth, hheight, hseed, hstep, hturn, hedit, htick, hdamage, hhealth, heach⟩ :=
    numbers_eq_iff.mp hnumbers
  refine bind_eq_ok (setting_eq_ok_iff.mpr ⟨hwidth, hc.width⟩) ?_
  refine bind_eq_ok (setting_eq_ok_iff.mpr ⟨hheight, hc.height⟩) ?_
  refine bind_eq_ok (setting_eq_ok_iff.mpr ⟨hstep, hc.stepDelay⟩) ?_
  refine bind_eq_ok (setting_eq_ok_iff.mpr ⟨hturn, hc.turnDelay⟩) ?_
  refine bind_eq_ok (setting_eq_ok_iff.mpr ⟨hedit, hc.editLimit⟩) ?_
  refine bind_eq_ok (setting_eq_ok_iff.mpr ⟨htick, hc.tick⟩) ?_
  refine bind_eq_ok (setting_eq_ok_iff.mpr ⟨hdamage, hc.damage⟩) ?_
  refine bind_eq_ok (setting_eq_ok_iff.mpr ⟨hhealth, hc.health⟩) ?_
  rw [← heach, ← hseed]
  cases hpickups : c.powerupsPerType with
  | none =>
    show Except.ok _ = Except.ok c
    rw [← hpickups]
  | some q =>
    have hq (fault : Fault) : setting q.toJson (·.below 0) fault = .ok q :=
      setting_eq_ok_iff.mpr ⟨rfl, hc.pickups q hpickups⟩
    have hread (fault : Fault) : (some <$> setting q.toJson (·.below 0) fault >>= fun pickups =>
        Except.ok { c with powerupsPerType := pickups }) = .ok c := by
      rw [hq]
      show Except.ok { c with powerupsPerType := some q } = Except.ok c
      rw [← hpickups]
    -- a number is never `null`, whatever its form
    cases q <;> exact hread _

/-- What is given for a player; of several members for one player the last counts. -/
def lastGiven (p : Player) (members : List (String × Json)) : Option Json :=
  (members.reverse.find? fun member => Player.ofText? member.1 == some p).map (·.2)

theorem lastGiven_cons {p q : Player} {text : String} (h : Player.ofText? text = some p)
    (value : Json) (members : List (String × Json)) : lastGiven q ((text, value) :: members) =
      (lastGiven q members).or (if q = p then some value else none) := by
  unfold lastGiven
  rw [List.reverse_cons, List.find?_append, List.find?_singleton, h, Option.map_or]
  by_cases hq : q = p
  · simp [hq]
  · have hp : p ≠ q := Ne.symm hq
    simp [hq, hp]

/-- The players who are named, in the order in which they were first named. -/
def named (names : List (Player × Json)) : List Player := names.map (·.1)

def nameIn (names : List (Player × Json)) (p : Player) : Option Json :=
  (names.find? (·.1 == p)).map (·.2)

theorem any_iff_mem_named {names : List (Player × Json)} {p : Player} :
    names.any (·.1 == p) = true ↔ p ∈ named names := by
  simp [named]

theorem nameIn_eq_none_iff {names : List (Player × Json)} {p : Player} :
    nameIn names p = none ↔ p ∉ named names := by
  rw [← any_iff_mem_named, ← List.isSome_find?, nameIn, Option.map_eq_none_iff,
    Option.not_isSome_iff_eq_none]

/-- A player who is named for the first time comes last. -/
theorem insertName_new {names : List (Player × Json)} {p : Player} (h : p ∉ named names)
    (name : Json) : insertName names p name = names ++ [(p, name)] := by
  unfold insertName
  rw [if_neg (mt any_iff_mem_named.mp h)]

theorem named_insertName (names : List (Player × Json)) (p : Player) (name : Json) :
    named (insertName names p name) =
      if p ∈ named names then named names else named names ++ [p] := by
  by_cases hp : p ∈ named names
  · unfold insertName
    rw [if_pos (any_iff_mem_named.mpr hp), if_pos hp, named, List.map_map]
    refine List.map_congr_left fun entry _ => ?_
    by_cases hentry : entry.1 = p <;> simp [hentry]
  · rw [insertName_new hp, if_neg hp]
    simp [named]

theorem nodup_insertName {names : List (Player × Json)} (h : (named names).Nodup) (p : Player)
    (name : Json) : (named (insertName names p name)).Nodup := by
  rw [named_insertName]
  split
  · exact h
  · next hp =>
    rw [← List.concat_eq_append, List.nodup_concat]
    exact ⟨hp, h⟩

theorem nameIn_insertName (names : List (Player × Json)) (p : Player) (name : Json) (q : Player) :
    nameIn (insertName names p name) q = if q = p then some name else nameIn names q := by
  by_cases hp : p ∈ named names
  · -- the entries keep their players, so an entry is found where it was found before
    have hkey : (fun entry : Player × Json => entry.1 == q) ∘
        (fun entry => if entry.1 == p then (p, name) else entry) = (·.1 == q) := by
      funext entry
      by_cases hentry : entry.1 = p <;> simp [hentry]
    unfold insertName
    rw [if_pos (any_iff_mem_named.mpr hp), nameIn, nameIn, List.find?_map, hkey, Option.map_map]
    cases hfound : names.find? (·.1 == q) with
    | none =>
      have hq : q ∉ named names := by
        rw [← nameIn_eq_none_iff, nameIn, hfound]
        rfl
      rw [if_neg]
      · rfl
      · rintro rfl
        exact hq hp
    | some found =>
      have hsame : found.1 = q := by simpa using List.find?_some hfound
      by_cases hq : q = p <;> simp [hsame, hq]
  · rw [insertName_new hp, nameIn, List.find?_append, List.find?_singleton, Option.map_or]
    by_cases hq : q = p
    · subst hq
      have hnone : nameIn names q = none := nameIn_eq_none_iff.mpr hp
      rw [nameIn] at hnone
      simp [hnone]
    · have hp : p ≠ q := Ne.symm hq
      simp [hq, hp, nameIn]

/-- Players who are named once each are named again in the same order. -/
theorem foldl_insertName (before names : List (Player × Json))
    (h : (named (before ++ names)).Nodup) :
    names.foldl (fun names entry => insertName names entry.1 entry.2) before = before ++ names := by
  induction names generalizing before with
  | nil => exact (List.append_nil before).symm
  | cons entry names ih =>
    have hnew : entry.1 ∉ named before := by
      rw [named, List.map_append, List.map_cons, List.nodup_middle, List.nodup_cons] at h
      exact fun hmem => h.1 (List.mem_append_left _ hmem)
    rw [List.append_cons] at h ⊢
    rw [List.foldl_cons, insertName_new hnew]
    exact ih _ h

/-- Reads the members of a section, each under its player, into what is there. -/
def readInto {σ : Type} (put : σ → Player → Json → σ) (s : σ) (members : List (String × Json)) :
    Except Fault σ :=
  members.foldlM (fun s entry => do return put s (← Player.ofJson (.text entry.1)) entry.2) s

section

variable {σ : Type} {put : σ → Player → Json → σ} {s s' : σ} {members : List (String × Json)}

theorem of_readInto_cons {member : String × Json}
    (h : readInto put s (member :: members) = .ok s') :
    ∃ p, Player.ofText? member.1 = some p ∧ readInto put (put s p member.2) members = .ok s' := by
  obtain ⟨between, hstep, h⟩ := exists_ok_of_bind h
  obtain ⟨p, hp, hstep⟩ := exists_ok_of_bind hstep
  obtain rfl := Except.ok.inj hstep
  exact ⟨p, Player.ofJson_eq_ok_iff.mp hp, h⟩

/-- What is read under a player is what was given last, or what was there before. -/
theorem get_readInto (get : σ → Player → Option Json)
    (hput : ∀ s p value q, get (put s p value) q = if q = p then some value else get s q)
    (h : readInto put s members = .ok s') (q : Player) :
    get s' q = (lastGiven q members).or (get s q) := by
  induction members generalizing s with
  | nil =>
    obtain rfl := Except.ok.inj h
    rfl
  | cons member members ih =>
    obtain ⟨p, hp, h⟩ := of_readInto_cons h
    rw [ih h, hput, lastGiven_cons hp, Option.or_assoc]
    congr 1
    split <;> rfl

theorem readInto_keeps (Good : σ → Prop) (hput : ∀ s p value, Good s → Good (put s p value))
    (hs : Good s) (h : readInto put s members = .ok s') : Good s' := by
  induction members generalizing s with
  | nil =>
    obtain rfl := Except.ok.inj h
    exact hs
  | cons member members ih =>
    obtain ⟨p, -, h⟩ := of_readInto_cons h
    exact ih (hput s p member.2 hs) h

/-- The words of players are read as these players. -/
theorem readInto_words (put : σ → Player → Json → σ) (s : σ) (entries : List (Player × Json)) :
    readInto put s (entries.map fun entry => (word entry.1, entry.2)) =
      .ok (entries.foldl (fun s entry => put s entry.1 entry.2) s) := by
  induction entries generalizing s with
  | nil => rfl
  | cons entry entries ih =>
    refine bind_eq_ok ?_ (ih (put s entry.1 entry.2))
    exact bind_eq_ok (Player.ofJson_eq_ok_iff.mpr (Player.ofText?_word entry.1)) rfl

end

/-- The members of a section; nothing but an object has any. -/
def membersOf (data : Json) (label : String) : List (String × Json) :=
  match data.findD label .null with
  | .object members => members
  | _ => []

theorem readSection_optional {data : Json} {label : String} {members : List (String × Json)}
    (h : readSection label (optionalSection data label) = .ok members) :
    members = membersOf data label := by
  unfold optionalSection at h
  unfold membersOf
  dsimp only at h
  split at h
  · cases hvalue : data.findD label .null with
    | object given =>
      rw [hvalue] at h
      exact (Except.ok.inj h).symm
    | _ =>
      rw [hvalue] at h
      cases h
  · next habsent =>
    obtain rfl := Except.ok.inj h
    cases hvalue : data.findD label .null with
    | object given =>
      rw [hvalue] at habsent
      cases given with
      | nil => rfl
      | cons => exact absurd rfl habsent
    | _ => rfl

theorem optionalSection_object {data : Json} {label : String} {members : List (String × Json)}
    (h : data.findD label .null = .object members) :
    optionalSection data label = .object members := by
  unfold optionalSection
  rw [h]
  cases members <;> rfl

/-- What is read from a document. -/
theorem ofJson_ok {data : Json} {c : MatchConfig} (h : ofJson data = .ok c) :
    c.numbers = numbersIn (data.findD "config" (.object [])) ∧ c.Admitted ∧
      readNames (membersOf data "names") = .ok c.names ∧
      readScripts (membersOf data "scripts") = .ok c.scripts := by
  unfold ofJson at h
  split at h
  · obtain ⟨config, hconfig, h⟩ := exists_ok_of_bind h
    obtain ⟨names, hnames, h⟩ := exists_ok_of_bind h
    obtain ⟨scripts, hscripts, h⟩ := exists_ok_of_bind h
    obtain ⟨read, hread, h⟩ := exists_ok_of_bind h
    obtain ⟨read', hread', h⟩ := exists_ok_of_bind h
    obtain ⟨hnumbers, hadmitted, rfl, rfl⟩ := of_readSettings h
    rw [← readSection_optional hnames, ← readSection_optional hscripts]
    exact ⟨hnumbers, hadmitted, hread, hread'⟩
  · cases h

theorem numbersIn_numbers (c : MatchConfig) : numbersIn (.object c.numbers) = c.numbers :=
  rfl

/-- Settings in range whose players are named once each are read from what they write. -/
theorem ofJson_toJson {c : MatchConfig} (hadmitted : c.Admitted) (hnames : (named c.names).Nodup) :
    ofJson c.toJson = .ok c := by
  have hread : readNames (c.names.map fun entry => (word entry.1, entry.2)) = .ok c.names := by
    refine (readInto_words insertName [] c.names).trans ?_
    exact congrArg Except.ok (foldl_insertName [] c.names hnames)
  have hread' : readScripts [(word Player.a, c.scripts.a), (word Player.b, c.scripts.b)] =
      .ok c.scripts :=
    readInto_words Duo.set defaultScripts [(.a, c.scripts.a), (.b, c.scripts.b)]
  have hsettings : readSettings (.object c.numbers) c.names c.scripts = .ok c :=
    readSettings_eq_ok (numbersIn_numbers c).symm hadmitted
  refine bind_eq_ok (a := c.numbers) rfl ?_
  refine bind_eq_ok (congrArg (readSection "names") (optionalSection_object rfl)) ?_
  refine bind_eq_ok (congrArg (readSection "scripts") (optionalSection_object rfl)) ?_
  exact bind_eq_ok hread (bind_eq_ok hread' hsettings)

/-- Whatever document settings are read from, they are read again from the document that they write,
which is then written again. Their numbers are those of the document, as given, and the defaults
where it has none. Each player has the name and the script that were given last under any spelling
of the player; without one there is no name, and the script is the default one. -/
theorem settings_reread {data : Json} {c : MatchConfig} (h : ofJson data = .ok c) :
    ofJson c.toJson = .ok c ∧ toJson <$> ofJson c.toJson = .ok c.toJson ∧
      c.numbers = numbersIn (data.findD "config" (.object [])) ∧ (named c.names).Nodup ∧
      ∀ p, nameIn c.names p = lastGiven p (membersOf data "names") ∧
        c.scripts.get p = (lastGiven p (membersOf data "scripts")).getD (defaultScripts.get p) := by
  obtain ⟨hnumbers, hadmitted, hread, hread'⟩ := ofJson_ok h
  have hnodup : (named c.names).Nodup :=
    readInto_keeps (fun names => (named names).Nodup)
      (fun _ p name hnames => nodup_insertName hnames p name) (s := []) List.nodup_nil hread
  have hagain : ofJson c.toJson = .ok c := ofJson_toJson hadmitted hnodup
  have hset (scripts : Duo Json) (p : Player) (text : Json) (q : Player) :
      some ((scripts.set p text).get q) = if q = p then some text else some (scripts.get q) := by
    rw [Duo.get_set]
    split <;> rfl
  refine ⟨hagain, ?_, hnumbers, hnodup, fun p => ⟨?_, ?_⟩⟩
  · rw [hagain]
    rfl
  · exact (get_readInto nameIn nameIn_insertName hread p).trans Option.or_none
  · have hscript := get_readInto (fun scripts q => some (scripts.get q)) hset hread' p
    rw [Option.or_some] at hscript
    exact Option.some.inj hscript

/-- Two names for one player, and a script for the other. -/
theorem settings_reread_colliding :
    ∃ c, ofJson (.object [
        ("config", .object [("width", .whole 5), ("step_delay", .bool false)]),
        ("names", .object [("a", .text "Runner"), (" A ", .text "Hunter")]),
        ("scripts", .object [("b", .text "Wait")])]) = .ok c ∧
      ofJson c.toJson = .ok c ∧
      c.numbers = ("width", .whole 5) :: ("height", .whole 10) :: ("seed", .null) ::
        ("step_delay", .bool false) :: defaultNumbers.drop 4 ∧
      nameIn c.names .a = some (.text "Hunter") ∧ nameIn c.names .b = none ∧
      ∀ p, c.scripts.get p = (Duo.mk defaultScripts.a (.text "Wait")).get p := by
  have h : ofJson (.object [
      ("config", .object [("width", .whole 5), ("step_delay", .bool false)]),
      ("names", .object [("a", .text "Runner"), (" A ", .text "Hunter")]),
      ("scripts", .object [("b", .text "Wait")])]) =
    .ok ⟨.whole 5, .whole 10, .null, ⟨.flag false, .real 0.15, .real 30, .real 0.1⟩, .whole 20,
      .whole 100, none, [(.a, .text "Hunter")], ⟨defaultScripts.a, .text "Wait"⟩⟩ := rfl
  obtain ⟨hagain, -, hnumbers, -, hgiven⟩ := settings_reread h
  refine ⟨_, h, hagain, hnumbers, (hgiven .a).1, (hgiven .b).1, fun p => ?_⟩
  refine (hgiven p).2.trans ?_
  cases p <;> rfl

end MatchConfig

end MazeDuel
