import ModuleCompiler.Descriptor.Decode
import ModuleCompiler.Module.Service
import ModuleCompiler.Proofs.Decode.Carried
import ModuleCompiler.Tree.Yaml

/-!
Settings of a service as they are written are settings of a descriptor, and the same ones: what is
left out when it is written is what stands in for it when it is read.
-/

namespace ModuleCompiler.Module

open Decode

section Trees

theorem isCarried_durationTree (d : Duration) : (durationTree d).IsCarried := isCarried_text d.toText

theorem RunConfig.isCarried (r : RunConfig) : r.toTree.IsCarried := by
  have hretries : r.maxRetries.toNat < wordBound 128 :=
    Nat.lt_trans r.maxRetries.toNat_lt (by decide)
  refine isCarried_fieldsOf ?_
  simp [isCarried_natural hretries, isCarried_durationTree]

theorem ProxyConf.isCarried (c : ProxyConf) : c.toTree.IsCarried := by
  refine isCarried_fieldsOf ?_
  simp [isCarried_durationTree]

theorem StringSub.isCarried (s : StringSub) : s.toTree.IsCarried := by
  refine isCarried_fieldsOf ?_
  simp

end Trees

section Records

variable {p : Place} {n : Yaml.Node}

theorem RunConfig.readsBack (r : RunConfig) (hp : 2 ≤ p.depth) (hn : r.toTree.CarriedBy n) :
    RunConfig.ofDescriptor <$> Descriptor.RunConfig.decoder p n = pure r := by
  have hretries := readsBack_uint32.option nofun r.maxRetries
  have htimeout := readsBack_duration.option nofun r.stopTimeout
  have hsignal := readsBack_text.option nofun
  have hread :=
    @record_carried _ Descriptor.RunConfig.fields p _ _ _ n hn (by omega)
      (.cons (fills_always rfl fun q n _ h => hretries q n (Nat.zero_le _) h) <|
      .cons (fills_always rfl fun q n _ h => readsBack_bool r.runOnce q n (Nat.zero_le _) h) <|
      .cons (fills_always rfl fun q n _ h => htimeout q n (Nat.zero_le _) h) <|
      .cons (fills_present rfl fun t q n _ h => hsignal t q n (Nat.zero_le _) h) <|
      .cons (fills_always rfl fun q n _ h => readsBack_bool r.pseudoTty q n (Nat.zero_le _) h) <|
      .cons (fills_listed rfl fun q n hq h => readsBack_commandDecoder r.command q n (by omega) h)
      .nil) (by decide) "RunConfig" {}
  rw [Descriptor.RunConfig.decoder, hread, map_pure]
  obtain ⟨maxRetries, runOnce, stopTimeout, stopSignal, pseudoTty, command⟩ := r
  cases stopSignal <;> cases command <;> rfl

theorem eq_empty_of_isEmpty {m : SortedMap α} (h : m.isEmpty = true) : m = ∅ :=
  map_eq_of_isEmpty h rfl

theorem ProxyConf.readsBack (c : ProxyConf) (hp : 2 ≤ p.depth) (hn : c.toTree.CarriedBy n) :
    ProxyConf.ofDescriptor <$> Descriptor.ProxyConf.decoder p n = pure c := by
  have hheaders := readsBack_text.table c.headers
  have htimeout := readsBack_duration.option nofun
  have hread :=
    @record_carried _ Descriptor.ProxyConf.fields p _ _ _ n hn (by omega)
      (.cons (fills_tabled rfl fun q n hq h => hheaders q n (by omega) h) <|
      .cons (fills_always rfl fun q n _ h => readsBack_bool c.websocket q n (Nat.zero_le _) h) <|
      .cons (fills_present rfl fun d q n _ h => htimeout d q n (Nat.zero_le _) h)
      .nil) (by decide) "ProxyConf" {}
  rw [Descriptor.ProxyConf.decoder, hread, map_pure]
  obtain ⟨headers, websocket, readTimeout⟩ := c
  cases hempty : headers.isEmpty with
  | true =>
    obtain rfl := eq_empty_of_isEmpty hempty
    cases readTimeout <;> rfl
  | false => cases readTimeout <;> simp [ProxyConf.ofDescriptor]

theorem StringSub.readsBack (s : StringSub) (hp : 2 ≤ p.depth) (hn : s.toTree.CarriedBy n) :
    StringSub.ofDescriptor <$> Descriptor.StringSub.decoder p n = pure s := by
  have hmimeTypes := readsBack_text.list s.mimeTypes
  have hfilters := readsBack_text.table s.filters
  have hread :=
    @record_carried _ Descriptor.StringSub.fields p _ _ _ n hn (by omega)
      (.cons (fills_always rfl fun q n _ h => readsBack_bool s.replaceOnce q n (Nat.zero_le _) h) <|
      .cons (fills_listed rfl fun q n hq h => hmimeTypes q n (by omega) h) <|
      .cons (fills_tabled rfl fun q n hq h => hfilters q n (by omega) h)
      .nil) (by decide) "StringSub" {}
  rw [Descriptor.StringSub.decoder, hread, map_pure]
  obtain ⟨replaceOnce, mimeTypes, filters⟩ := s
  cases hempty : filters.isEmpty with
  | true =>
    obtain rfl := eq_empty_of_isEmpty hempty
    cases mimeTypes <;> rfl
  | false => cases mimeTypes <;> simp [StringSub.ofDescriptor]

end Records

/-- What is written of the settings of a service can be said in a document, and wherever it is said,
it is read as these settings. A span of time is read from its text to the nanosecond. -/
theorem settings_read_back :
    (∀ r : RunConfig, r.toTree.IsCarried ∧ ∀ p n, 2 ≤ p.depth → r.toTree.CarriedBy n →
      RunConfig.ofDescriptor <$> Descriptor.RunConfig.decoder p n = pure r) ∧
    (∀ c : ProxyConf, c.toTree.IsCarried ∧ ∀ p n, 2 ≤ p.depth → c.toTree.CarriedBy n →
      ProxyConf.ofDescriptor <$> Descriptor.ProxyConf.decoder p n = pure c) ∧
    (∀ s : StringSub, s.toTree.IsCarried ∧ ∀ p n, 2 ≤ p.depth → s.toTree.CarriedBy n →
      StringSub.ofDescriptor <$> Descriptor.StringSub.decoder p n = pure s) ∧
    ∀ d : Duration, Duration.ofText? d.toText = some d ∧ ∀ p n, (durationTree d).CarriedBy n →
      Duration.decoder p n = pure d :=
  ⟨fun r => ⟨r.isCarried, fun _ _ hp hn => r.readsBack hp hn⟩,
    fun c => ⟨c.isCarried, fun _ _ hp hn => c.readsBack hp hn⟩,
    fun s => ⟨s.isCarried, fun _ _ hp hn => s.readsBack hp hn⟩,
    fun d => ⟨Duration.ofText?_toText d, fun p n hn => readsBack_duration d p n (Nat.zero_le _) hn⟩⟩

def rotation : RunConfig where
  maxRetries := 3
  runOnce := true
  stopTimeout := .ofSeconds 90
  stopSignal := some "SIGTERM"
  command := ["rotate", "--all"]

theorem settings_read_back_rotation :
    RunConfig.ofDescriptor <$> Descriptor.RunConfig.decoder .root
      (Yaml.Document.ofBytes rotation.toTree.toYaml.toUTF8).root = pure rotation := by
  have hroot : rotation.toTree.isIn
      (Yaml.Document.ofBytes rotation.toTree.toYaml.toUTF8).root = true := by decide +kernel
  exact (settings_read_back.1 rotation).2 .root _ (by decide) (Tree.carriedBy_of_isIn hroot)

end ModuleCompiler.Module
