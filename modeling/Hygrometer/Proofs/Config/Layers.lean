import Hygrometer.Config.Load
import Hygrometer.Proofs.Config.Port
import Hygrometer.Proofs.Config.Strictness

/-!
# The layers of a configuration

A configuration is loaded in layers: the defaults, the file, the variable `PORT`. The file takes the
place of the defaults as soon as anything stands at its path, so what is wrong with it is never
covered up: if it is no text, or its text describes no configuration, that is the result whatever
the variable is (`load_of_read_error`, `load_file`). The variable comes last and can change nothing
but the port (`eq_of_overridePort`), and so two configurations loaded from one path differ in their
ports at most.

**What may stand at the path** is nothing, a file of any octets, or a directory. Only a file whose
octets are UTF-8 has a text (`read_eq_ok_iff`); a directory and any other file cannot be read
(`exists_read_eq_error`), which is a fault of the server and not of a request.

**A load that succeeds** has a base, which is the defaults or what was read from the file, and the
configuration is the base with its port overridden (`exists_of_load`). Which of the two it is,
depends on the path alone. So everything about bases is said of defaults and of texts, and what the
variable does to a base is said once for both.

The lemmas about the variable are those of the server's own port, with the other sections around it.
-/

namespace Hygrometer

namespace ConfigPath

/-- A file holds a text exactly if its octets are the text's encoding. -/
theorem read_eq_ok_iff {path : ConfigPath} {text : String} :
    path.read = .ok text ↔ path = .file text.toUTF8 := by
  rcases path with - | - | content
  · simp [read]
  · simp [read]
  · rw [read, String.fromUTF8?]
    by_cases hvalid : content.IsValidUTF8
    · have hbytes : (String.fromUTF8 content hvalid).toByteArray = content := rfl
      rw [dif_pos hvalid]
      simp [← String.toByteArray_inj, hbytes]
    · rw [dif_neg hvalid]
      refine ⟨fun h ↦ (nomatch h), fun h ↦ absurd ?_ hvalid⟩
      obtain rfl := ConfigPath.file.inj h
      exact text.isValidUTF8

/-- What stands at a path and is no text. -/
theorem exists_read_eq_error {path : ConfigPath}
    (h : path = .directory ∨ ∃ content, path = .file content ∧ ¬content.IsValidUTF8) :
    ∃ unreadable, path.read = .error unreadable := by
  rcases h with rfl | ⟨content, rfl, hvalid⟩
  · exact ⟨.directory, rfl⟩
  · refine ⟨.notUtf8, ?_⟩
    rw [read, String.fromUTF8?, dif_neg hvalid]

end ConfigPath

namespace Config

variable {path : ConfigPath} {value? : Option String}

/-! ### The variable -/

theorem overridePort_none (c : Config) : c.overridePort none = .ok c := rfl

theorem overridePort_some_eq_ok_iff {c c' : Config} {value : String} :
    c.overridePort (some value) = .ok c' ↔
      ∃ port : UInt16, Port.Names value port.toNat ∧ c' = { c with server.port := port } := by
  rw [overridePort, Except.map_eq_ok_iff]
  constructor
  · rintro ⟨server, hserver, rfl⟩
    rw [Except.mapError_eq_ok_iff] at hserver
    obtain ⟨port, hnames, rfl⟩ := ServerConfig.overridePort_some_eq_ok_iff.1 hserver
    exact ⟨port, hnames, rfl⟩
  · rintro ⟨port, hnames, rfl⟩
    exact ⟨_, Except.mapError_eq_ok_iff.2
      (ServerConfig.overridePort_some_eq_ok_iff.2 ⟨port, hnames, rfl⟩), rfl⟩

/-- Whatever the variable is, it changes the port only. -/
theorem eq_of_overridePort {c c' : Config} (h : c.overridePort value? = .ok c') :
    c' = { c with server.port := c'.server.port } := by
  rcases value? with - | value
  · cases h
    rfl
  · obtain ⟨port, -, rfl⟩ := overridePort_some_eq_ok_iff.1 h
    rfl

theorem overridePort_of_names {c : Config} {value : String} {n : ℕ} (h : Port.Names value n)
    (hn : n ≤ 65535) :
    ∃ port : UInt16, port.toNat = n ∧
      c.overridePort (some value) = .ok { c with server.port := port } := by
  obtain ⟨port, hport, hserver⟩ := ServerConfig.overridePort_of_names (c := c.server) h hn
  refine ⟨port, hport, ?_⟩
  rw [overridePort, hserver]
  rfl

theorem exists_overridePort_eq_error {c : Config} {value : String}
    (h : ∀ n ≤ 65535, ¬Port.Names value n) :
    ∃ failure, c.overridePort (some value) = .error failure ∧ failure.kind = .badRequest := by
  obtain ⟨fault, hfault⟩ := ServerConfig.exists_overridePort_eq_error (c := c.server) h
  refine ⟨fault.toFailure, ?_, rfl⟩
  rw [overridePort, hfault]
  rfl

/-! ### The file -/

theorem load_missing : load .missing value? = ({} : Config).overridePort value? := rfl

/-- Something stands at the path, so the defaults have no part in the result. -/
theorem load_of_ne_missing (h : path ≠ .missing) :
    load path value? = loadFile path >>= (·.overridePort value?) := by
  rcases path with - | - | content
  · exact absurd rfl h
  · rfl
  · rfl

theorem load_of_read_error {unreadable : Unreadable} (h : path ≠ .missing)
    (hread : path.read = .error unreadable) :
    load path value? = .error unreadable.toFailure := by
  rw [load_of_ne_missing h, loadFile, hread]
  rfl

theorem load_file (text : String) :
    load (.file text.toUTF8) value? = parse text >>= (·.overridePort value?) := by
  rw [load_of_ne_missing (by simp), loadFile, ConfigPath.read_eq_ok_iff.2 rfl]
  rfl

/-- What is loaded has a layer below the variable: the defaults if nothing stands at the path, else
what the text of the file describes. -/
theorem exists_of_load {c : Config} (h : load path value? = .ok c) :
    ∃ base, base.overridePort value? = .ok c ∧
      (path = .missing ∧ base = {} ∨
        ∃ text : String, path = .file text.toUTF8 ∧ parse text = .ok base) := by
  by_cases hmissing : path = .missing
  · obtain rfl := hmissing
    exact ⟨_, h, .inl ⟨rfl, rfl⟩⟩
  · rw [load_of_ne_missing hmissing, Except.bind_eq_ok_iff] at h
    obtain ⟨base, hfile, h⟩ := h
    rw [loadFile, Except.bind_eq_ok_iff] at hfile
    obtain ⟨text, hread, hparse⟩ := hfile
    rw [Except.mapError_eq_ok_iff, ConfigPath.read_eq_ok_iff] at hread
    exact ⟨base, h, .inr ⟨text, hread, hparse⟩⟩

/-- The layer below the variable does not depend on the variable. -/
theorem eq_of_load {value'? : Option String} {c c' : Config} (h : load path value? = .ok c)
    (h' : load path value'? = .ok c') : c' = { c with server.port := c'.server.port } := by
  obtain ⟨base, hbase, hlayer⟩ := exists_of_load h
  obtain ⟨base', hbase', hlayer'⟩ := exists_of_load h'
  have hsame : base' = base := by
    rcases hlayer with ⟨rfl, rfl⟩ | ⟨text, rfl, hparse⟩
    · rcases hlayer' with ⟨-, rfl⟩ | ⟨text, hpath, -⟩
      · rfl
      · cases hpath
    · rcases hlayer' with ⟨hpath, -⟩ | ⟨text', hpath, hparse'⟩
      · cases hpath
      · obtain rfl : text = text' := String.toByteArray_inj.1 (ConfigPath.file.inj hpath)
        rw [hparse] at hparse'
        exact (Except.ok.inj hparse').symm
  rw [eq_of_overridePort hbase', eq_of_overridePort hbase, hsame]

/-- **The defaults, then the file, then the variable.** If nothing stands at the path, the defaults
are overridden. What is no UTF-8 text is an internal failure. Of a text, first what is wrong with it
is reported, whatever the variable is; only a configuration that it does describe is overridden.
Overriding changes the port, and nothing else, to the number that the variable names, or is a bad
request. So what is loaded from a path that holds something is what its text describes, up to the
port; and the variable has no influence on anything but the port. -/
theorem load_layers (path : ConfigPath) :
    (path = .missing → ∀ value?, load path value? = ({} : Config).overridePort value?) ∧
    (path = .directory ∨ (∃ content, path = .file content ∧ ¬content.IsValidUTF8) →
      ∀ value?, ∃ failure, load path value? = .error failure ∧ failure.kind = .internal) ∧
    (∀ text : String, path = .file text.toUTF8 → ∀ value?,
      (∀ failure, parse text = .error failure → load path value? = .error failure) ∧
      (∀ c, parse text = .ok c → load path value? = c.overridePort value?)) ∧
    (∀ c : Config, c.overridePort none = .ok c ∧
      (∀ value n, Port.Names value n → n ≤ 65535 →
        ∃ port : UInt16, port.toNat = n ∧
          c.overridePort (some value) = .ok { c with server.port := port }) ∧
      (∀ value, (∀ n ≤ 65535, ¬Port.Names value n) →
        ∃ failure, c.overridePort (some value) = .error failure ∧ failure.kind = .badRequest)) ∧
    (∀ value? c, load path value? = .ok c → path ≠ .missing →
      ∃ (text : String) (base : Config), path = .file text.toUTF8 ∧ parse text = .ok base ∧
        c = { base with server.port := c.server.port }) ∧
    (∀ value? value'? c c', load path value? = .ok c → load path value'? = .ok c' →
      c' = { c with server.port := c'.server.port }) := by
  refine ⟨?_, ?_, ?_, ?_, ?_, fun _ _ _ _ ↦ eq_of_load⟩
  · rintro rfl value?
    exact load_missing
  · intro h value?
    obtain ⟨unreadable, hread⟩ := ConfigPath.exists_read_eq_error h
    have hne : path ≠ .missing := by
      rintro rfl
      simp at h
    exact ⟨_, load_of_read_error hne hread, rfl⟩
  · rintro text rfl value?
    refine ⟨fun failure h ↦ ?_, fun c h ↦ ?_⟩
    · rw [load_file, h]
      rfl
    · rw [load_file, h]
      rfl
  · exact fun c ↦ ⟨c.overridePort_none, fun _ _ ↦ overridePort_of_names,
      fun _ ↦ exists_overridePort_eq_error⟩
  · intro value? c h hne
    obtain ⟨base, hbase, ⟨hmissing, -⟩ | ⟨text, hpath, hparse⟩⟩ := exists_of_load h
    · exact absurd hmissing hne
    · exact ⟨text, base, hpath, hparse, eq_of_overridePort hbase⟩

/-- A file that gives a port of its own and a name, loaded with and without the variable; and a file
with a port that is none, which the variable does not mend. -/
theorem load_layers_shadowed :
    let path := ConfigPath.file "server: {port: 9000, service_name: attic}\n".toUTF8
    let broken := ConfigPath.file "server: {port: 90000}\n".toUTF8
    ∃ c c', load path none = .ok c ∧ load path (some "+0080") = .ok c' ∧
      c.server.port = 9000 ∧ c.server.serviceName = "attic" ∧
      c' = { c with server.port := 80 } ∧
      ∃ failure, failure.kind = .badRequest ∧ load broken (some "80") = .error failure := by
  intro path broken
  have hnames : Port.Names "+0080" 80 :=
    ⟨[], "+0080".toList, [], by decide, by decide, by decide +kernel,
      "0080".toList, .inr (by decide +kernel), by decide +kernel,
      List.all_eq_true.1 (by decide +kernel), by decide +kernel⟩
  have hfields : (parse "server: {port: 9000, service_name: attic}\n").toOption.map
      (fun c ↦ (c.server.port, c.server.serviceName)) = some (9000, "attic") := by
    decide +kernel
  have hbroken : (parse "server: {port: 90000}\n").toOption = none := by decide +kernel
  obtain ⟨-, -, htext, hoverride, -, -⟩ := load_layers path
  obtain ⟨-, -, htext', -, -, -⟩ := load_layers broken
  cases hparse : parse "server: {port: 9000, service_name: attic}\n" with
  | error failure =>
    rw [hparse] at hfields
    cases hfields
  | ok c =>
    rw [hparse] at hfields
    obtain ⟨hport, hname⟩ := Prod.mk.inj (Option.some.inj hfields)
    cases hparse' : parse "server: {port: 90000}\n" with
    | ok c' =>
      rw [hparse'] at hbroken
      cases hbroken
    | error failure =>
      obtain ⟨hnone, hsome, -⟩ := hoverride c
      obtain ⟨port, heighty, hresult⟩ := hsome _ _ hnames (by decide)
      obtain rfl : port = 80 := UInt16.toNat_inj.1 heighty
      refine ⟨c, _, ((htext _ rfl none).2 c hparse).trans hnone,
        ((htext _ rfl _).2 c hparse).trans hresult, hport, hname, rfl, failure,
        kind_of_parse_error hparse', (htext' _ rfl _).1 failure hparse'⟩

end Config
end Hygrometer
