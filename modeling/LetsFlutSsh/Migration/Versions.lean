import LetsFlutSsh.Lib.Bytes
import LetsFlutSsh.Migration.Runner

/-!
# Migrations: the versions of the files

`migration/artefacts.rs` and `build_app_registry`. The parser of JSON texts is left open.

* `Dir` : what stands at a file's place, if anything;
* `readVersionField` : the probe of `config.json` and of `security_pass_hash.bin`;
* `Honest` : what a report should say of such a file; `honest_iff` : when it does.
-/

namespace LetsFlutSsh.Migrations
open Lib List

/-- A file that is there has its bytes, or an error for who reads it. -/
abbrev Dir := String → Option (Except String Bytes)

def SchemaVersions.config : Int := 1

def SchemaVersions.kdf : Int := 1

def SchemaVersions.passGate : Int := 1

def SchemaVersions.hwSalt : Int := 1

/-- `v as i32`. -/
def narrow (v : Int64) : Int := v.toInt32.toInt

def readVersionField (J : Bytes → Except String Json) (fileName field : String) (dir : Dir) : Except String Int :=
  match dir fileName with
  | none => .ok (-1)
  | some (.error e) => .error ("read " ++ fileName ++ ": " ++ e)
  | some (.ok bytes) =>
    match J bytes with
    | .error e => .error (fileName ++ ": parse: " ++ e)
    | .ok (.obj m) =>
      let number (v : Json) : Except String Int :=
        (v.asI64.map narrow).elim (.error (fileName ++ ": " ++ field ++ " not representable as i32")) .ok
      match Json.Object.get m field with
      | some (.int n) => number (.int n)
      | some (.float x) => number (.float x)
      | none => .ok 1
      | some _ => .error (fileName ++ ": non-integer " ++ field)
    | .ok _ => .error (fileName ++ ": not a JSON object")

def configArtefact (J : Bytes → Except String Json) : Artefact Dir :=
  ⟨"config.json", SchemaVersions.config, readVersionField J "config.json" "config_schema_version"⟩

def passGateArtefact (J : Bytes → Except String Json) : Artefact Dir :=
  ⟨"security_pass_hash.bin", SchemaVersions.passGate, readVersionField J "security_pass_hash.bin" "v"⟩

def hwSaltArtefact : Artefact Dir where
  id := "hardware_vault_salt.bin"
  targetVersion := SchemaVersions.hwSalt
  readVersion dir :=
    match dir "hardware_vault_salt.bin" with
    | none => .ok (-1)
    | some (.error e) => .error ("stat hardware_vault_salt.bin: " ++ e)
    | some (.ok bytes) =>
      if bytes.length ≠ 32 then
        .error ("hardware_vault_salt.bin: unexpected length (" ++ toString bytes.length ++ " bytes, want 32)")
      else .ok 1

def kdfArtefact : Artefact Dir where
  id := "credentials.kdf"
  targetVersion := SchemaVersions.kdf
  readVersion dir :=
    match dir "credentials.kdf" with
    | none => .ok (-1)
    | some (.error e) => .error ("read credentials.kdf: " ++ e)
    | some (.ok bytes) =>
      if bytes.length < 5 then
        .error ("credentials.kdf: truncated header (" ++ toString bytes.length ++ " bytes, need ≥ 5)")
      else if bytes.take 4 ≠ [0x4C, 0x46, 0x4B, 0x44] then .error "credentials.kdf: wrong magic"
      else
        let version := ((bytes[4]?.getD 0).toNat : Int)
        if version < 1 then
          .error ("credentials.kdf: invalid schema version " ++ toString version ++ " (must be ≥ 1)")
        else .ok version

def buildAppRegistry (J : Bytes → Except String Json) : Registry Dir :=
  { artefacts := [configArtefact J, kdfArtefact, passGateArtefact J, hwSaltArtefact] }

/-- An integer in a text, as the parser hands it over: a fraction where it does not fit 64 bits. -/
def integerValue (n : Int) : Json := if Int64.minValue.toInt ≤ n ∧ n < 2 ^ 64 then .int n else .float n

/-- The file is a JSON object whose version is `n`. -/
def HasVersion (J : Bytes → Except String Json) (dir : Dir) (fileName field : String) (n : Int) : Prop :=
  ∃ bytes m, dir fileName = some (.ok bytes) ∧ J bytes = .ok (.obj m) ∧ Json.Object.get m field = some (integerValue n)

/-- The version counts as what it is: it is reported where it is too new, migrated from where it is too old, and fatal where
it is none. -/
structure Honest (a : Artefact Dir) (n : Int) (r : Report) : Prop where
  future : a.targetVersion < n → r.fatalError.isSome ∨ ∃ f ∈ r.futureVersions, f.artefactId = a.id
  chain : 1 ≤ n → n < a.targetVersion → r.fatalError.isSome ∨ ∃ s ∈ r.steps, s.artefactId = a.id ∧ s.fromVersion = n
  none : n < 1 → r.fatalError.isSome

/-- The probe of an artefact whose target is version 1 ends the start. -/
def Fails (a : Artefact Dir) (dir : Dir) : Prop := (∃ e, a.readVersion dir = .error e) ∨ a.readVersion dir = .ok 0

/-- The version does not fit 64 bits, or its lower 32 bits as a signed number tell the same of it. -/
def SurvivesNarrowing (n : Int) : Prop :=
  ¬(Int64.minValue.toInt ≤ n ∧ n ≤ Int64.maxValue.toInt) ∨ n.bmod (2 ^ 32) = 0 ∨
    1 ≤ n ∧ 1 ≤ n.bmod (2 ^ 32) ∧ (n.bmod (2 ^ 32) = 1 → n = 1)

/-! ## A start without migrations -/

theorem migrateArtefact_plain {R : Registry Dir} (hR : R.migrations = []) {a : Artefact Dir} (ha : a.targetVersion = 1)
    (fuel : Nat) (s : Running Dir) : ∃ o steps, migrateArtefact R (fuel + 1) a s = some (o, (s.1, steps)) ∧
      ((∃ e, o = .fatal e) ↔ Fails a s.1) ∧
      ∀ f, o = .future f ↔ ∃ v, a.readVersion s.1 = .ok v ∧ 1 < v ∧ f = ⟨a.id, v, 1⟩ := by
  unfold migrateArtefact Fails
  rcases a.readVersion s.1 with e | v
  · exact ⟨_, s.2, rfl, by simp, by simp⟩
  dsimp only
  rw [ha]
  split_ifs with hneg hone hlater
  · exact ⟨.ok, s.2, rfl, by simp; omega, by simp; omega⟩
  · exact ⟨.ok, s.2, rfl, by simp; omega, by simp; omega⟩
  · exact ⟨_, s.2, rfl, by simp; omega, by simp [hlater, eq_comm]⟩
  · obtain rfl : v = 0 := by omega
    have hnone : findMigration R a.id 0 = none := by rw [findMigration, hR]; rfl
    rw [walkChain, ha, if_pos (by decide), hnone]
    exact ⟨_, _, rfl, by simp, by simp⟩

theorem runOrdered_plain {R : Registry Dir} (hR : R.migrations = []) (hone : ∀ a ∈ R.artefacts, a.targetVersion = 1)
    (fuel : Nat) (order : List Nat) (future : List UnsupportedFutureVersion) (s : Running Dir) :
    ∃ r, runOrdered R (fuel + 1) order future s = some (r, s.1) ∧
      (r.fatalError.isSome ↔ ∃ i ∈ order, ∃ a, R.artefacts[i]? = some a ∧ Fails a s.1) ∧
      (r.fatalError = none → ∀ f, f ∈ r.futureVersions ↔ f ∈ future ∨ ∃ i ∈ order, ∃ a, R.artefacts[i]? = some a ∧
        ∃ v, a.readVersion s.1 = .ok v ∧ 1 < v ∧ f = ⟨a.id, v, 1⟩) := by
  induction order generalizing future s with
  | nil => exact ⟨_, rfl, by simp, by simp⟩
  | cons i order ih =>
    rw [runOrdered]
    rcases ha : R.artefacts[i]? with _ | a
    · obtain ⟨r, hr, hfatal, hfuture⟩ := ih future s
      exact ⟨r, hr, by simpa [ha] using hfatal, by simpa [ha] using hfuture⟩
    obtain ⟨o, steps, ho, hfails, hlater⟩ := migrateArtefact_plain hR (hone a (mem_of_getElem? ha)) fuel s
    simp only [ho, Option.bind_some, exists_mem_cons_iff, ha, Option.some.injEq, exists_eq_left']
    rcases o with _ | f | e
    · obtain ⟨r, hr, hfatal, hfuture⟩ := ih future (s.1, steps)
      have hno : ¬Fails a s.1 := fun h => by simpa using hfails.2 h
      refine ⟨r, hr, by simpa [hno] using hfatal, fun hnone f => (hfuture hnone f).trans ?_⟩
      have hnot : ¬∃ v, a.readVersion s.1 = .ok v ∧ 1 < v ∧ f = ⟨a.id, v, 1⟩ := fun h => by simpa using (hlater f).2 h
      simp [hnot]
    · obtain ⟨r, hr, hfatal, hfuture⟩ := ih (future ++ [f]) (s.1, steps)
      have hno : ¬Fails a s.1 := fun h => by simpa using hfails.2 h
      refine ⟨r, hr, by simpa [hno] using hfatal, fun hnone g => (hfuture hnone g).trans ?_⟩
      have hg : g = f ↔ ∃ v, a.readVersion s.1 = .ok v ∧ 1 < v ∧ g = ⟨a.id, v, 1⟩ := by
        rw [← hlater g, ArtefactOutcome.future.injEq, eq_comm]
      simp [← hg, or_assoc]
    · exact ⟨_, rfl, by simpa using .inl (hfails.1 ⟨e, rfl⟩), by simp⟩

/-! ## Versioned JSON files -/

section Files

variable (J : Bytes → Except String Json)

/-- The artefacts with a version in a JSON object, and the members it stands in. -/
def versionedFiles : List (Artefact Dir × String) :=
  [(configArtefact J, "config_schema_version"), (passGateArtefact J, "v")]

variable {J} {dir : Dir} {n : Int}

theorem readVersionField_of {fileName field : String} (h : HasVersion J dir fileName field n) :
    readVersionField J fileName field dir =
      if Int64.minValue.toInt ≤ n ∧ n ≤ Int64.maxValue.toInt then .ok (n.bmod (2 ^ 32))
      else .error (fileName ++ ": " ++ field ++ " not representable as i32") := by
  have hmin : Int64.minValue.toInt = -2 ^ 63 := rfl
  have hmax : Int64.maxValue.toInt = 2 ^ 63 - 1 := rfl
  obtain ⟨bytes, m, hdir, hJ, hfield⟩ := h
  simp only [readVersionField, hdir, hJ, hfield, integerValue]
  by_cases hfits : Int64.minValue.toInt ≤ n ∧ n ≤ Int64.maxValue.toInt
  · rw [if_pos ⟨hfits.1, by omega⟩, if_pos hfits]
    simp only [Json.asI64, if_pos hfits, Option.map_some, Option.elim_some, narrow]
    rw [Int64.toInt_toInt32, Int64.toInt_ofInt_of_le (by omega) (by omega)]
  · rw [if_neg hfits]
    split_ifs
    · simp only [Json.asI64, if_neg hfits, Option.map_none, Option.elim_none]
    · rfl

/-- **When a start is honest about a version**: where it survives the narrowing to 32 bits, or something else ends the start. -/
theorem honest_iff {a : Artefact Dir} {field : String} (ha : (a, field) ∈ versionedFiles J)
    (h : HasVersion J dir a.id field n) (fuel : Nat) :
    ∃ r, runOnStartup (buildAppRegistry J) (fuel + 1) dir = some (r, dir) ∧
      (Honest a n r ↔ SurvivesNarrowing n ∨ ∃ b ∈ (buildAppRegistry J).artefacts, b.id ≠ a.id ∧ Fails b dir) := by
  have horder : topoSort (buildAppRegistry J) = .ok [3, 2, 1, 0] := rfl
  have hone : ∀ b ∈ (buildAppRegistry J).artefacts, b.targetVersion = 1 := by
    simp [buildAppRegistry, configArtefact, passGateArtefact, kdfArtefact, hwSaltArtefact, SchemaVersions.config,
      SchemaVersions.kdf, SchemaVersions.passGate, SchemaVersions.hwSalt]
  have hids : ((buildAppRegistry J).artefacts.map Artefact.id).Nodup := by
    show ["config.json", "credentials.kdf", "security_pass_hash.bin", "hardware_vault_salt.bin"].Nodup
    decide
  have hall : ∀ P : Artefact Dir → Prop, (∃ i ∈ [3, 2, 1, 0], ∃ b, (buildAppRegistry J).artefacts[i]? = some b ∧ P b) ↔
      ∃ b ∈ (buildAppRegistry J).artefacts, P b := by
    intro P
    simp [buildAppRegistry]
    tauto
  obtain ⟨hmem, hread⟩ : a ∈ (buildAppRegistry J).artefacts ∧ a.readVersion dir = readVersionField J a.id field dir := by
    rcases mem_cons.1 ha with hfile | hfile
    · cases hfile
      exact ⟨by simp [buildAppRegistry], rfl⟩
    · cases mem_singleton.1 hfile
      exact ⟨by simp [buildAppRegistry], rfl⟩
  rw [readVersionField_of h] at hread
  obtain ⟨r, hr, hfatal, hfuture⟩ := runOrdered_plain (R := buildAppRegistry J) rfl hone fuel [3, 2, 1, 0] [] (dir, [])
  refine ⟨r, by rw [runOnStartup, horder]; exact hr, ?_⟩
  rw [hall] at hfatal
  by_cases hsome : r.fatalError.isSome
  · refine iff_of_true ⟨fun _ => .inl hsome, fun _ _ => .inl hsome, fun _ => hsome⟩ ?_
    obtain ⟨b, hb, hfails⟩ := hfatal.1 hsome
    by_cases hid : b.id = a.id
    · obtain rfl := inj_on_of_nodup_map hids hb hmem hid
      unfold Fails at hfails
      rw [hread] at hfails
      left
      split_ifs at hfails with hfits
      · exact .inr (.inl (by simpa using hfails))
      · exact .inl hfits
    · exact .inr ⟨b, hb, hid, hfails⟩
  · have hno : ∀ b ∈ (buildAppRegistry J).artefacts, ¬Fails b dir := fun b hb hfails => hsome (hfatal.2 ⟨b, hb, hfails⟩)
    have hfits : Int64.minValue.toInt ≤ n ∧ n ≤ Int64.maxValue.toInt := by
      by_contra hfits
      exact hno a hmem (.inl ⟨_, hread.trans (if_neg hfits)⟩)
    rw [if_pos hfits] at hread
    have hzero : n.bmod (2 ^ 32) ≠ 0 := fun hzero => hno a hmem (.inr (hread.trans (congrArg _ hzero)))
    have hown : (∃ f ∈ r.futureVersions, f.artefactId = a.id) ↔ 1 < n.bmod (2 ^ 32) := by
      have hmem_iff := fun f => hfuture (Option.not_isSome_iff_eq_none.1 hsome) f
      simp only [hall, not_mem_nil, false_or] at hmem_iff
      constructor
      · rintro ⟨f, hf, hid⟩
        obtain ⟨b, hb, v, hv, hlater, rfl⟩ := (hmem_iff f).1 hf
        obtain rfl := inj_on_of_nodup_map hids hb hmem hid
        rw [hread] at hv
        cases hv
        exact hlater
      · exact fun hlater => ⟨_, (hmem_iff _).2 ⟨a, hmem, _, hread, hlater, rfl⟩, rfl⟩
    have hbmod : n = 1 → n.bmod (2 ^ 32) = 1 := by
      rintro rfl
      rfl
    have hhonest : Honest a n r ↔ (1 < n → 1 < n.bmod (2 ^ 32)) ∧ 1 ≤ n := by
      rw [← hown]
      constructor
      · exact fun hh => ⟨fun hn => (hh.future (by rwa [hone a hmem])).resolve_left hsome, by
          by_contra hn
          exact hsome (hh.none (by omega))⟩
      · rintro ⟨hlater, hn⟩
        refine ⟨fun hlt => .inr (hlater (by rwa [← hone a hmem])), fun _ hlt => ?_, fun hlt => ?_⟩
        · rw [hone a hmem] at hlt
          omega
        · omega
    have hothers : ¬∃ b ∈ (buildAppRegistry J).artefacts, b.id ≠ a.id ∧ Fails b dir :=
      fun ⟨b, hb, _, hfails⟩ => hno b hb hfails
    rw [hhonest, SurvivesNarrowing, or_iff_left hothers, or_iff_right (not_not.2 hfits), or_iff_right hzero]
    omega

end Files

def parseInteger (bytes : Bytes) : Option Int :=
  let digits := if bytes.head? = some 0x2D then bytes.tail else bytes
  let n : Nat := digits.foldl (fun n b => 10 * n + (b.toNat - 48)) 0
  if digits ≠ [] ∧ digits.all fun b => 48 ≤ b && b ≤ 57 then some (if bytes.head? = some 0x2D then -n else n) else none

/-- The version in the text of an object that has no other member. -/
def versionOf (bytes : Bytes) : Option Int :=
  if bytes.take 25 = utf8 "\x7b\"config_schema_version\":" ∧ bytes.getLast? = some 0x7D then parseInteger (bytes.drop 25).dropLast
  else none

def parseVersionText (bytes : Bytes) : Except String Json :=
  (versionOf bytes).elim (.error "expected value at line 1 column 1") fun n => .ok (.obj [("config_schema_version", integerValue n)])

/-- A directory with nothing but a configuration of this version. -/
def onlyConfig (version : String) : Dir := fun name =>
  if name = "config.json" then some (.ok (utf8 ("\x7b\"config_schema_version\":" ++ version ++ "\x7d"))) else none

theorem hasVersion_of {version : String} {n : Int}
    (h : versionOf (utf8 ("\x7b\"config_schema_version\":" ++ version ++ "\x7d")) = some n) :
    HasVersion parseVersionText (onlyConfig version) "config.json" "config_schema_version" n :=
  ⟨_, _, rfl, by rw [parseVersionText, h]; rfl, rfl⟩

theorem honest_iff_future : ∃ r, runOnStartup (buildAppRegistry parseVersionText) 1 (onlyConfig "2") = some (r, onlyConfig "2") ∧
    Honest (configArtefact parseVersionText) 2 r := by
  have hversion : HasVersion parseVersionText (onlyConfig "2") "config.json" "config_schema_version" 2 :=
    hasVersion_of (by decide +kernel)
  obtain ⟨r, hr, hiff⟩ := honest_iff (J := parseVersionText) mem_cons_self hversion 0
  exact ⟨r, hr, hiff.2 (.inl (by unfold SurvivesNarrowing; decide))⟩

/-- Version 2^32 + 1 passes for version 1, and a version of -1 for a file that is not there. -/
theorem narrowed_version_passes :
    HasVersion parseVersionText (onlyConfig "4294967297") "config.json" "config_schema_version" 4294967297 ∧
    (runOnStartup (buildAppRegistry parseVersionText) 1 (onlyConfig "4294967297")).map Prod.fst = some {} ∧
    ¬Honest (configArtefact parseVersionText) 4294967297 {} ∧
    HasVersion parseVersionText (onlyConfig "-1") "config.json" "config_schema_version" (-1) ∧
    (runOnStartup (buildAppRegistry parseVersionText) 1 (onlyConfig "-1")).map Prod.fst = some {} ∧
    ¬Honest (configArtefact parseVersionText) (-1) {} := by
  refine ⟨hasVersion_of (by decide +kernel), by decide +kernel, fun h => ?_, hasVersion_of (by decide +kernel),
    by decide +kernel, fun h => ?_⟩
  · simpa using h.future (by decide)
  · simpa using h.none (by decide)

end LetsFlutSsh.Migrations
