import HeapPressure.Proofs.Settings.Limits
import HeapPressure.Proofs.Settings.Reading
import HeapPressure.Proofs.Toml.Reading

/-!
Which documents are settings. A TOML document is read exactly when every entry is one of the
intended ones, and it is read as it is written; the JSON form lacks the two bounds only.
-/
namespace HeapPressure.Settings

open Toml (Key Node Table Gives)

/-- The intended entries, with a memory limit below `limit` and a timeout of at least `least`. -/
structure Intended (limit least : Nat) (es : List (Key × Node)) : Prop where
  known : ∀ e ∈ es, e.1.name ∈ ["memory-limit-mb", "timeout-secs", "fixture", "logging"]
  memoryLimitMb : ∀ e ∈ es, e.1.name = "memory-limit-mb" →
    ∃ n : Nat, n < limit ∧ e.2.Is (.integer n)
  timeoutSecs : ∀ e ∈ es, e.1.name = "timeout-secs" → ∃ n : Nat, least ≤ n ∧ e.2.Is (.integer n)
  fixture : ∀ e ∈ es, e.1.name = "fixture" → ∃ path, e.2.Is (.string path)
  logging : ∀ e ∈ es, e.1.name = "logging" →
    ∀ t, e.2.IsTable t → Log.Choices.IntendedIn t.entries

variable {es : List (Key × Node)} {limit least : Nat}

theorem intended_of_writtenIn {s : Settings} (h : s.WrittenIn es)
    (hlimit : s.memoryLimitMb.toNat < limit) (hleast : least ≤ s.timeoutSecs.toNat)
    (hr : Regular es) : Intended limit least es where
  known := h.known
  memoryLimitMb e he hname := ⟨_, hlimit, h.memoryLimitMb.present e he hname⟩
  timeoutSecs e he hname := ⟨_, hleast, h.timeoutSecs.present e he hname⟩
  fixture e he hname := by
    obtain ⟨path, -, hpath⟩ := h.fixture.present e he hname
    exact ⟨path, hpath⟩
  logging e he hname t ht := by
    obtain ⟨u, hu, hc⟩ := h.logging.present e he hname
    rw [hu.unique ht] at hc
    have hn := (ht.sound (hr.nodes e he)).names_nodup
    exact (Log.Choices.exists_writtenIn_iff hn).mp ⟨_, hc⟩

theorem exists_unsigned64 {n : Nat} (h : n < 0x10000000000000000) : ∃ k : UInt64, k.toNat = n :=
  ⟨.ofNat n, UInt64.toNat_ofNat_of_lt h⟩

theorem exists_writtenIn (hr : Regular es) (h : Intended limit least es) (hdefault : 256 < limit)
    (hlimit : limit ≤ 0x10000000000000000) (hleast : least ≤ 15) :
    ∃ s : Settings, s.WrittenIn es ∧ s.memoryLimitMb.toNat < limit ∧
      least ≤ s.timeoutSecs.toNat := by
  have hn := hr.names_nodup
  obtain ⟨mb, hmb, hlimitmb⟩ : ∃ mb : UInt64, mb.toNat < limit ∧
      Gives es "memory-limit-mb" (fun mb n => n.Is (.integer mb.toNat)) 256 mb := by
    refine Gives.exists_of_forall hn hdefault fun e he hname => ?_
    obtain ⟨n, hlt, hn⟩ := h.memoryLimitMb e he hname
    obtain ⟨k, rfl⟩ := exists_unsigned64 (Nat.lt_of_lt_of_le hlt hlimit)
    exact ⟨k, hlt, hn⟩
  obtain ⟨secs, hsecs, htimeout⟩ : ∃ secs : UInt64, least ≤ secs.toNat ∧
      Gives es "timeout-secs" (fun secs n => n.Is (.integer secs.toNat)) 15 secs := by
    refine Gives.exists_of_forall hn hleast fun e he hname => ?_
    obtain ⟨n, hle, hn⟩ := h.timeoutSecs e he hname
    have hfits := hn.fits (hr.nodes e he)
    simp only [Toml.Scalar.Fits] at hfits
    obtain ⟨k, rfl⟩ := exists_unsigned64 (n := n) (by omega)
    exact ⟨k, hle, hn⟩
  obtain ⟨path, -, hpath⟩ : ∃ path, True ∧
      Gives es "fixture" (fun path n => n.Spells id path) none path := by
    refine Gives.exists_of_forall hn trivial fun e he hname => ?_
    obtain ⟨path, hpath⟩ := h.fixture e he hname
    exact ⟨some path, trivial, path, rfl, hpath⟩
  obtain ⟨choices, -, hchoices⟩ : ∃ choices : Log.Choices, True ∧
      Gives es "logging" (fun choices n => choices.WrittenAt n) {} choices := by
    refine Gives.exists_of_forall hn trivial fun e he hname => ?_
    obtain ⟨t, ht, -⟩ := hr.logging e he hname
    have hn := (ht.sound (hr.nodes e he)).names_nodup
    obtain ⟨c, hc⟩ := (Log.Choices.exists_writtenIn_iff hn).mpr (h.logging e he hname t ht)
    exact ⟨c, trivial, t, ht, hc⟩
  exact ⟨⟨mb, secs, path, choices⟩, ⟨h.known, hlimitmb, htimeout, hpath, hchoices⟩, hmb, hsecs⟩

theorem ofTable_eq_ok_iff {t : Table} {s : Settings} (hr : Regular t.entries) :
    ofTable t = .ok s ↔ s.WrittenIn t.entries := foldlM_eq_ok_iff hr

theorem ofJson_eq_ok_iff {json : String} {v : Json.Value} {t : Table} {s : Settings}
    (hread : Json.read json = ⟨v, false⟩) (hv : (Node.table t).InJson v)
    (hr : Regular t.entries) : ofJson json = .ok s ↔ s.WrittenIn t.entries := by
  have hvalue : ofJson json = ofValue v := by
    rw [ofJson, hread]
    cases ofValue v <;> rfl
  rw [hvalue, ← ofTable_eq_ok_iff hr, ← Toml.toOption_eq_some_iff, ← Toml.toOption_eq_some_iff,
    toOption_ofValue hv hr]

/-- Settings are read from a document, with log choices that are scalars if any, exactly when its
entries are the intended ones: known names, a limit below 2^44, a timeout of at least 1, a string
for the fixture, a known level and format. What is read is what is written, and the default where
nothing is. From the same entries in JSON the same is read, whether or not it is valid. -/
theorem documents_read_as_written (text : String) (t : Table) (hread : Toml.read text = some t)
    (hlogging : ∀ e ∈ t.entries, e.1.name = "logging" → Log.Choices.ScalarsAt e.2) :
    ((∃ s, ofToml text = .ok s) ↔ Intended 0x100000000000 1 t.entries) ∧
    (∀ s, ofToml text = .ok s ↔ s.WrittenIn t.entries ∧ s.validate = .ok ()) ∧
    (∀ json v, Json.read json = ⟨v, false⟩ → (Node.table t).InJson v →
      ((∃ s, ofJson json = .ok s) ↔ Intended 0x10000000000000000 0 t.entries) ∧
      (∀ s, ofJson json = .ok s ↔ s.WrittenIn t.entries) ∧
      ∀ s, ofToml text = .ok s ↔ ofJson json = .ok s ∧ s.validate = .ok ()) := by
  have hsound := Toml.read_sound hread
  have hr : Regular t.entries := ⟨hsound.names_nodup, hsound.nodes, hlogging⟩
  have htoml (s : Settings) : ofToml text = .ok s ↔ s.WrittenIn t.entries ∧ s.Valid := by
    rw [ofToml_eq_ok_iff, hread]
    simp [ofTable_eq_ok_iff hr]
  refine ⟨⟨?_, fun h => ?_⟩, fun s => ?_,
    fun json v hjson hv => ⟨⟨?_, fun h => ?_⟩, ?_, fun s => ?_⟩⟩
  · rintro ⟨s, hs⟩
    obtain ⟨hw, hvalid⟩ := (htoml s).mp hs
    obtain ⟨hlimit, hleast⟩ := valid_iff.mp hvalid
    exact intended_of_writtenIn hw hlimit hleast hr
  · obtain ⟨s, hw, hbounds⟩ := exists_writtenIn hr h (by decide) (by decide) (by decide)
    exact ⟨s, (htoml s).mpr ⟨hw, valid_iff.mpr hbounds⟩⟩
  · rw [htoml, validate_eq_ok_iff]
  · rintro ⟨s, hs⟩
    exact intended_of_writtenIn ((ofJson_eq_ok_iff hjson hv hr).mp hs) s.memoryLimitMb.toNat_lt
      (Nat.zero_le _) hr
  · obtain ⟨s, hw, -⟩ := exists_writtenIn hr h (by decide) (by decide) (by decide)
    exact ⟨s, (ofJson_eq_ok_iff hjson hv hr).mpr hw⟩
  · exact fun s => ofJson_eq_ok_iff hjson hv hr
  · rw [htoml, ofJson_eq_ok_iff hjson hv hr, validate_eq_ok_iff]

/-- One document in both forms, each in an order of its own, with a key beside the log choices. -/
theorem documents_read_as_written_reordered :
    let text := "timeout-secs = 3\n[logging]\nx = []\nlog-format = \"json\"\n"
    let json := "\x7b\"logging\":\x7b\"log-format\":\"json\",\"x\":[]\x7d,\"timeout-secs\":3\x7d"
    let log : Table := ⟨{}, some ⟨37, 1⟩, [(⟨"x", ⟨27, 26⟩⟩, .array [] ⟨23, 21⟩),
      (⟨"log-format", ⟨20, 10⟩⟩, .leaf (.string "json") ⟨7, 1⟩)]⟩
    let t : Table := ⟨{}, none, [(⟨"timeout-secs", ⟨54, 42⟩⟩, .leaf (.integer 3) ⟨39, 38⟩),
      (⟨"logging", ⟨36, 29⟩⟩, .table log)]⟩
    let s : Settings := { timeoutSecs := 3, logging := { format := some .json } }
    Toml.read text = some t ∧
      (∀ e ∈ t.entries, e.1.name = "logging" → Log.Choices.ScalarsAt e.2) ∧
      Intended 0x100000000000 1 t.entries ∧ s.WrittenIn t.entries ∧ ofToml text = .ok s ∧
      ofJson json = .ok s := by
  intro text json log t s
  have hread : Toml.read text = some t := by
    simp only [text, Toml.read, String.reduceToList]
    rfl
  have hscalars : ∀ e ∈ t.entries, e.1.name = "logging" → Log.Choices.ScalarsAt e.2 := by
    intro e he hname
    obtain rfl | rfl : e = _ ∨ e = _ := by simpa [t] using he
    · simp at hname
    · refine ⟨log, .inl rfl, fun d hd hdname => ?_⟩
      obtain rfl | rfl : d = _ ∨ d = _ := by simpa [log] using hd
      · simp at hdname
      · exact ⟨_, _, rfl⟩
  let v : Json.Value := .object (.cons (some "logging")
    (.object (.cons (some "log-format") (.string (some "json")) (.cons (some "x") (.array .close)
      .close))) (.cons (some "timeout-secs") (.number ⟨false, 3, [], none⟩) .close))
  have hjson : Json.read json = ⟨v, false⟩ := by
    simp only [json, Json.read, String.reduceToList]
    rfl
  have hforms : (Node.table t).InJson v :=
    .table (.inl rfl) (.swap _ _ _) (.cons (.table (.inl rfl) (.swap _ _ _)
      (.cons (.string _ _) (.cons (.array _ .nil) .nil))) (.cons (.integer _ rfl) .nil))
  have hs : ofToml text = .ok s := Toml.toOption_eq_some_iff.mp (by decide +kernel)
  obtain ⟨haccepts, hwritten, hforms'⟩ := documents_read_as_written text t hread hscalars
  obtain ⟨-, -, hagree⟩ := hforms' json v hjson hforms
  exact ⟨hread, hscalars, haccepts.mp ⟨s, hs⟩, ((hwritten s).mp hs).1, hs, ((hagree s).mp hs).1⟩

end HeapPressure.Settings
