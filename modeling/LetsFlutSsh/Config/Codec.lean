import LetsFlutSsh.Config.Store
import LetsFlutSsh.Lib.Table

/-!
# The configuration codec

What the clamping, the validation, the writer, the reader and the export of a configuration have in common:

* `validate_sanitized`, `sanitized_sanitized` : a clamped configuration is valid, and clamping leaves it alone;
* `fromJsonObject_portable` : the members outside of `perHostKeys` are read back clamped, whatever the others are;
* `fromJsonObject_toJsonObject`, `fromJsonValue_stripForExport` : the whole object, and its portable part.
-/

namespace LetsFlutSsh.Config
open Lib
open Json (Object)

/-! ## Clamped values -/

section

variable {α : Type} {p : α → Prop} [DecidablePred p] {d : α}

theorem kept_valid (hd : p d) (x : α) : p (if p x then x else d) := by
  split_ifs with h
  · exact h
  · exact hd

theorem not_replaced (hd : ¬p d) (x : α) : ¬p (if p x then d else x) := by
  split_ifs with h
  · exact hd
  · exact h

end

theorem clamp_bounds {lo hi : Rat} (h : lo ≤ hi) (x : Rat) : lo ≤ clamp x lo hi ∧ clamp x lo hi ≤ hi := by
  unfold clamp
  split_ifs <;> grind

theorem clamp_of_bounds {lo hi x : Rat} (h : lo ≤ x ∧ x ≤ hi) : clamp x lo hi = x := by
  unfold clamp
  rw [if_neg (by grind), if_neg (by grind)]

namespace TerminalConfig

theorem valid_sanitized (c : TerminalConfig) : (6 ≤ c.sanitized.fontSize ∧ c.sanitized.fontSize ≤ 72) ∧
    c.sanitized.theme ∈ validThemes ∧ ¬c.sanitized.scrollback < 100 ∧ ¬c.sanitized.scrollback > maxScrollback := by
  refine ⟨clamp_bounds (by grind) _, kept_valid (p := (· ∈ validThemes)) (by decide) _, ?_⟩
  unfold sanitized
  dsimp only
  split_ifs with hlow hhigh
  · decide
  · decide
  · exact ⟨hlow, hhigh⟩

theorem validate_sanitized (c : TerminalConfig) : c.sanitized.validate = none := by
  obtain ⟨hfont, htheme, hlow, -⟩ := c.valid_sanitized
  rw [validate, if_neg (not_not_intro hfont), if_neg (not_not_intro htheme), if_neg hlow]

theorem sanitized_sanitized (c : TerminalConfig) : c.sanitized.sanitized = c.sanitized := by
  obtain ⟨hfont, htheme, hlow, hhigh⟩ := c.valid_sanitized
  generalize c.sanitized = s at *
  rw [sanitized, clamp_of_bounds hfont, if_pos htheme, if_neg hlow, if_neg hhigh]

end TerminalConfig

namespace SshDefaults

theorem valid_sanitized (c : SshDefaults) : ¬c.sanitized.keepaliveSec < 0 ∧
    (1 ≤ c.sanitized.defaultPort ∧ c.sanitized.defaultPort ≤ 65535) ∧ ¬c.sanitized.sshTimeoutSec < 1 :=
  ⟨not_replaced (p := (· < 0)) (by decide) _, kept_valid (p := fun n => 1 ≤ n ∧ n ≤ 65535) (by decide) _,
    not_replaced (p := (· < 1)) (by decide) _⟩

theorem validate_sanitized (c : SshDefaults) : c.sanitized.validate = none := by
  obtain ⟨hkeepalive, hport, htimeout⟩ := c.valid_sanitized
  rw [validate, if_neg hkeepalive, if_neg (not_not_intro hport), if_neg htimeout]

theorem sanitized_sanitized (c : SshDefaults) : c.sanitized.sanitized = c.sanitized := by
  obtain ⟨hkeepalive, hport, htimeout⟩ := c.valid_sanitized
  generalize c.sanitized = s at *
  rw [sanitized, if_neg hkeepalive, if_pos hport, if_neg htimeout]

end SshDefaults

namespace UiConfig

theorem valid_sanitized (c : UiConfig) : ¬c.sanitized.toastDurationMs < 500 ∧ ¬c.sanitized.windowWidth < 200 ∧
    ¬c.sanitized.windowHeight < 200 ∧ 1 / 2 ≤ c.sanitized.uiScale ∧ c.sanitized.uiScale ≤ 2 :=
  ⟨not_replaced (p := (· < 500)) (by decide) _, not_replaced (p := (· < 200)) (by decide) _,
    not_replaced (p := (· < 200)) (by decide) _, clamp_bounds (by grind) _⟩

theorem validate_sanitized (c : UiConfig) : c.sanitized.validate = none := by
  obtain ⟨htoast, hwidth, hheight, hscale⟩ := c.valid_sanitized
  rw [validate, if_neg htoast, if_neg hwidth, if_neg hheight, if_neg (not_not_intro hscale)]

theorem sanitized_sanitized (c : UiConfig) : c.sanitized.sanitized = c.sanitized := by
  obtain ⟨htoast, hwidth, hheight, hscale⟩ := c.valid_sanitized
  generalize c.sanitized = s at *
  rw [sanitized, if_neg htoast, if_neg hwidth, if_neg hheight, clamp_of_bounds hscale]

end UiConfig

namespace AppConfig

theorem valid_sanitized (c : AppConfig) : ¬c.sanitized.maxHistory < 0 ∧
    ¬c.sanitized.transferWorkers < 1 ∧ ¬c.sanitized.transferWorkers > maxTransferWorkers := by
  refine ⟨not_replaced (p := (· < 0)) (by decide) _, ?_⟩
  unfold sanitized
  dsimp only
  split_ifs with hfew hmany
  · decide
  · decide
  · exact ⟨hfew, hmany⟩

theorem validate_sanitized (c : AppConfig) : c.sanitized.validate = none := by
  obtain ⟨hhistory, hfew, -⟩ := c.valid_sanitized
  have hterminal : c.sanitized.terminal.validate = none := c.terminal.validate_sanitized
  have hssh : c.sanitized.ssh.validate = none := c.ssh.validate_sanitized
  have hui : c.sanitized.ui.validate = none := c.ui.validate_sanitized
  rw [validate, hterminal, hssh, hui, if_neg hfew, if_neg hhistory]
  rfl

theorem sanitized_sanitized (c : AppConfig) : c.sanitized.sanitized = c.sanitized := by
  obtain ⟨hhistory, hfew, hmany⟩ := c.valid_sanitized
  have hterminal : c.sanitized.terminal.sanitized = c.sanitized.terminal := c.terminal.sanitized_sanitized
  have hssh : c.sanitized.ssh.sanitized = c.sanitized.ssh := c.ssh.sanitized_sanitized
  have hui : c.sanitized.ui.sanitized = c.sanitized.ui := c.ui.sanitized_sanitized
  have hlocale : c.sanitized.locale.filter (fun l => l ∈ supportedLocales) = c.sanitized.locale := by simp [sanitized]
  have hcap : sanitizedStorageCap c.sanitized.recordingsStorageCapBytes = c.sanitized.recordingsStorageCapBytes :=
    sanitizedStorageCap_idem _
  have hsync : c.sanitized.sync.sanitized = c.sanitized.sync := c.sync.sanitized_sanitized
  generalize c.sanitized = s at *
  rw [sanitized, hterminal, hssh, hui, if_neg hfew, if_neg hmany, if_neg hhistory, hlocale, hcap, hsync]

/-! ## Members that are read back -/

variable {c : AppConfig} {obj : Object} {k : String}

theorem get_toJsonObject (htier : k ≠ "security_tier") (hmods : k ≠ "security_modifiers")
    (hprobe : k ≠ "security_probe_cache") : c.toJsonObject.get k = c.portableToJson.get k := by
  unfold toJsonObject securityToJson
  rw [Object.get_insert, if_neg hprobe]
  rcases c.security with _ | sec
  · rfl
  · rw [Object.get_insert, if_neg hmods, Object.get_insert, if_neg htier]

theorem get_toJsonObject_portable (hk : k ∉ perHostKeys) : c.toJsonObject.get k = c.portableToJson.get k := by
  simp only [perHostKeys, List.mem_cons, not_or] at hk
  exact get_toJsonObject hk.1 hk.2.1 hk.2.2.1

theorem bind_asStr (o : Option String) : (o.map Json.str).bind Json.asStr = o := by
  cases o <;> rfl

theorem fromJsonObject_portable (h : ∀ k ∉ perHostKeys, obj.get k = c.portableToJson.get k) :
    fromJsonObject obj = { c.sanitized with
      security := readSecurityConfig obj
      securityProbeCache := (obj.get "security_probe_cache").bind SecurityCapabilities.fromJsonValue
      sync := SyncConfig.fromJsonObject obj } := by
  have hlevel : ∀ o : Option LogLevel,
      ((o.map fun l => Json.str l.wireName).bind Json.asStr).bind LogLevel.fromWireName = o := by
    rintro (_ | l)
    · rfl
    · simp
  have hread : TerminalConfig.fromJsonObject obj = c.terminal.sanitized ∧ SshDefaults.fromJsonObject obj = c.ssh.sanitized ∧
      UiConfig.fromJsonObject obj = c.ui.sanitized ∧ BehaviorConfig.fromJsonObject obj = c.behavior ∧
      (obj.get "transfer_workers").bind Json.asI64 = some c.transferWorkers ∧
      (obj.get "max_history").bind Json.asI64 = some c.maxHistory ∧ (obj.get "locale").bind Json.asStr = c.locale ∧
      obj.get "recordings_storage_cap_bytes" = some (.ofU64 c.recordingsStorageCapBytes) := by
    refine ⟨?_, ?_, ?_, ?_, ?_, ?_, ?_, ?_⟩ <;>
      simp [TerminalConfig.fromJsonObject, SshDefaults.fromJsonObject, UiConfig.fromJsonObject, BehaviorConfig.fromJsonObject,
        BehaviorConfig.default, f64Or, strOr, i64Or, boolOr, h, perHostKeys, portableToJson, preferencesToJson,
        TerminalConfig.toJsonObject, SshDefaults.toJsonObject, UiConfig.toJsonObject, BehaviorConfig.toJsonObject,
        SyncConfig.toJsonObject, hlevel, bind_asStr]
  obtain ⟨hterminal, hssh, hui, hbehavior, hworkers, hhistory, hlocale, hcap⟩ := hread
  unfold fromJsonObject i64Or
  rw [hterminal, hssh, hui, hbehavior, hworkers, hhistory, hlocale, hcap, Option.bind_some, Json.asU64_ofU64]
  unfold sanitized
  simp only [TerminalConfig.sanitized_sanitized, SshDefaults.sanitized_sanitized, UiConfig.sanitized_sanitized,
    Option.getD_some]
  rw [SyncConfig.fromJsonObject, SyncConfig.sanitized_sanitized]

theorem fromJsonObject_toJsonObject (c : AppConfig) : fromJsonObject c.toJsonObject = c.sanitized := by
  have hsecurity : readSecurityConfig c.toJsonObject = c.security := by
    rw [← readSecurityConfig_toJson c.portableToJson c.security c.get_portableToJson_tier]
    refine readSecurityConfig_congr ?_ ?_
    · simp [toJsonObject]
    · simp [toJsonObject]
  have hprobe : (c.toJsonObject.get "security_probe_cache").bind SecurityCapabilities.fromJsonValue =
      c.securityProbeCache := by
    have hbool : ∀ b, boolOrFalse (some (.bool b)) = b := by decide
    rcases hc : c.securityProbeCache with _ | caps
    · simp [toJsonObject, hc, SecurityCapabilities.fromJsonValue, Json.asObject]
    · simp [toJsonObject, hc, SecurityCapabilities.fromJsonValue, SecurityCapabilities.toJsonValue, hbool]
  have hsync : SyncConfig.fromJsonObject c.toJsonObject = c.sync.sanitized := by
    simp [SyncConfig.fromJsonObject, strOr, boolOr, i64Or, get_toJsonObject, portableToJson, preferencesToJson,
      SyncConfig.toJsonObject]
  rw [fromJsonObject_portable fun k => get_toJsonObject_portable, hsecurity, hprobe, hsync]
  rfl

theorem fromJsonValue_stripForExport (c : AppConfig) : fromJsonValue (stripForExport c.toJsonValue) =
    { c.sanitized with security := none, securityProbeCache := none, sync := SyncConfig.default } := by
  have hget : ∀ k, Object.get (c.toJsonObject.filter fun e => e.1 ∉ perHostKeys) k =
      if decide (k ∉ perHostKeys) then c.toJsonObject.get k else none :=
    fun k => Table.lookup_filter (fun k => decide (k ∉ perHostKeys)) k c.toJsonObject
  change fromJsonObject (c.toJsonObject.filter _) = _
  generalize c.toJsonObject.filter _ = obj at hget ⊢
  have hgone : ∀ k ∈ perHostKeys, Object.get obj k = none := fun k hk => by rw [hget, if_neg (by simpa using hk)]
  have hkept : ∀ k ∉ perHostKeys, Object.get obj k = c.portableToJson.get k := fun k hk => by
    rw [hget, if_pos (by simpa using hk), get_toJsonObject_portable hk]
  refine (fromJsonObject_portable hkept).trans ?_
  simp only [perHostKeys, List.forall_mem_cons] at hgone
  have hsync : SyncConfig.fromJsonObject obj = SyncConfig.default := by
    simp only [SyncConfig.fromJsonObject, strOr, boolOr, i64Or, hgone, Option.bind_none, Option.getD_none]
    decide
  simp [readSecurityConfig, hgone, hsync]

theorem sanitized_default : default.sanitized = default := by
  have hscale : clamp UiConfig.default.uiScale (1 / 2) 2 = 1 := clamp_of_bounds (by unfold UiConfig.default; grind)
  unfold sanitized
  simp only [default, UiConfig.sanitized, hscale]
  rfl

theorem exists_sanitized (v : Json) : ∃ c, fromJsonValue v = sanitized c := by
  unfold fromJsonValue
  split
  · exact ⟨default, sanitized_default.symm⟩
  · exact ⟨_, rfl⟩

/-- **The codec**: whatever was read is valid, is left alone by the clamping and is read back from its own JSON. An export is
read as the clamped preferences, and nothing of the installation it comes from. -/
theorem config_codec : (∀ v, (fromJsonValue v).validate = none ∧ (fromJsonValue v).sanitized = fromJsonValue v ∧
      fromJsonValue (fromJsonValue v).toJsonValue = fromJsonValue v) ∧
    ∀ c, fromJsonValue (stripForExport (toJsonValue c)) =
      { c.sanitized with security := none, securityProbeCache := none, sync := SyncConfig.default } := by
  refine ⟨fun v => ?_, fromJsonValue_stripForExport⟩
  obtain ⟨c, hc⟩ := exists_sanitized v
  rw [hc]
  exact ⟨c.validate_sanitized, c.sanitized_sanitized, (fromJsonObject_toJsonObject _).trans c.sanitized_sanitized⟩

/-- A configuration that was never clamped comes back clamped. -/
theorem export_is_clamped : ¬∀ c, fromJsonValue (stripForExport (toJsonValue c)) =
    { c with security := none, securityProbeCache := none, sync := SyncConfig.default } := by
  intro h
  have hhistory := congrArg maxHistory (h { default with maxHistory := -1 })
  rw [fromJsonValue_stripForExport] at hhistory
  exact absurd hhistory (by decide)

end AppConfig

end LetsFlutSsh.Config
