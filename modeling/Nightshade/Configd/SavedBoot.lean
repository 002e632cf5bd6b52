import Mathlib
import Nightshade.Configd.Machine
import Nightshade.Configd.Provenance
import Nightshade.Render.Complete

/-! Booting with the saved configuration: when the devices that the last applied one had do not stop it. -/
namespace Nightshade.Configd
open Foundation Schema Render

/-! ### What a bench does where nothing is broken -/

namespace Bench

/-- The devices that were to be deleted and were not there. -/
def noteMissing : (op : HostOp) → Option op.Answer → Bench × Store → List String → List String
  | .run ["networkctl","delete",device], _, w, missing =>
    if device ∈ w.1.devices then missing else missing ++ [device]
  | _, _, _, missing => missing

/-- A bench and its files of last artifacts, with the devices noted that were missed. -/
abbrev Noted := (Bench × Store) × List String

/-- How a program ends on a bench where nothing is broken. -/
abbrev Goes {α : Type} (post : α → Noted → Prop) (program : HostProg α) (v : Noted) : Prop :=
  program.Ends (watched (onHost machine) noteMissing) (fun _ f _ => f = ⟨[],.ok⟩) post (fun _ => False) v

variable {α : Type} {v : Noted} {post : α → Noted → Prop}

theorem goes_sync {managed : Managed} {k : Except String Unit → HostProg α}
    (h : Goes post (k (.ok ())) ((v.1.1.sync managed,v.1.2),v.2)) : Goes post (.perform (.sync managed) k) v := by
  rintro f rfl
  exact h

theorem goes_write {path contents : String} {k : Except String Unit → HostProg α}
    (h : Goes post (k (.ok ())) (({v.1.1 with files := v.1.1.files.insert path contents},v.1.2),v.2)) :
    Goes post (.perform (.write path contents) k) v := by
  rintro f rfl
  exact h

theorem goes_read {path : String} {k : Except String (Option String) → HostProg α}
    (h : Goes post (k (.ok (v.1.1.files.get? path))) v) : Goes post (.perform (.read path) k) v := by
  rintro f rfl
  exact h

theorem goes_load {name : String} {k : Option Artifacts → HostProg α}
    (h : Goes post (k (v.1.2.get? name)) v) : Goes post (.perform (.load name) k) v := by
  rintro f rfl
  exact h

theorem goes_save {name : String} {artifacts : Artifacts} {k : Except String Unit → HostProg α}
    (h : Goes post (k (.ok ())) ((v.1.1,v.1.2.insert name artifacts),v.2)) :
    Goes post (.perform (.save name artifacts) k) v := by
  rintro f rfl
  exact h

theorem goes_run {argv : List String} {k : Except String Unit → HostProg α}
    (h : Goes post (k (v.1.1.run [] argv).1)
      (((v.1.1.run [] argv).2,v.1.2),noteMissing (.run argv) (some (v.1.1.run [] argv).1) v.1 v.2)) :
    Goes post (.perform (.run argv) k) v := by
  rintro f rfl
  exact h

theorem goes_runWithSecret {argv : List String} {secret : String} {k : Except String Unit → HostProg α}
    (h : Goes post (k (v.1.1.run [] argv).1) (((v.1.1.run [] argv).2,v.1.2),v.2)) :
    Goes post (.perform (.runWithSecret argv secret) k) v := by
  rintro f rfl
  exact h

/-- Nothing is cut off. -/
theorem goes_anyhow (program : HostProg α) (v : Noted) : Goes (fun _ _ => True) program v := by
  induction program generalizing v with
  | done a => trivial
  | perform op k ih =>
    rintro f rfl
    cases op with
    | _ => exact ih _ _

theorem Goes.bind {β : Type} {mid : α → Noted → Prop} {post : β → Noted → Prop} {program : HostProg α}
    {f : α → HostProg β} (h : Goes mid program v) (hf : ∀ a v, mid a v → Goes post (f a) v) :
    Goes post (program.bind f) v :=
  Prog.Ends.bind (h.mono hf (fun _ h => h))

/-- Actions that have nothing to do with devices. -/
def Tame (action : Render.Action) : Prop := (∀ device, action ≠ .recreateNetdev device) ∧ action ≠ .reloadNetworkd

theorem run_tame {action : Render.Action} (h : Tame action) (bench : Bench) :
    bench.run [] action.argv = (.ok (),bench) := by
  cases action with
  | recreateNetdev device => exact absurd rfl (h.1 device)
  | reloadNetworkd => exact absurd rfl h.2
  | ensureAccount name fullName => cases fullName <;> rfl
  | _ => rfl

theorem noteMissing_tame {action : Render.Action} (h : Tame action) (r : Option (HostOp.run action.argv).Answer)
    (w : Bench × Store) (missing : List String) : noteMissing (.run action.argv) r w missing = missing := by
  cases action with
  | recreateNetdev device => exact absurd rfl (h.1 device)
  | reloadNetworkd => exact absurd rfl h.2
  | ensureAccount name fullName => cases fullName <;> rfl
  | _ => rfl

/-- What everything but the renderer of the interfaces leaves alone. -/
structure Kept (v v' : Noted) : Prop where
  devices : v'.1.1.devices = v.1.1.devices
  store : v'.1.2 = v.1.2
  missing : v'.2 = v.2

theorem Kept.refl (v : Noted) : Kept v v := ⟨rfl,rfl,rfl⟩

theorem Kept.trans {u v w : Noted} (h : Kept u v) (k : Kept v w) : Kept u w :=
  ⟨k.devices.trans h.devices,k.store.trans h.store,k.missing.trans h.missing⟩

theorem goes_tame {action : Render.Action} (h : Tame action) :
    Goes (fun r v' => r = .ok () ∧ v' = v) (orHost (Host.run action.argv)) v := by
  apply goes_run
  rw [run_tame h,noteMissing_tame h]
  exact ⟨rfl,rfl⟩

/-- One step after another, where each goes through. -/
theorem goes_forEach {β : Type} {step : β → HostProg (Except ApplyError Unit)} {I : Noted → Prop} {l : List β}
    (hstep : ∀ b ∈ l, ∀ v, I v → Goes (fun r v' => r = .ok () ∧ I v') (step b) v) (hv : I v) :
    Goes (fun r v' => r = .ok () ∧ I v') (forEach step l) v := by
  induction l generalizing v with
  | nil => exact ⟨rfl,hv⟩
  | cons b l ih =>
    refine Goes.bind (hstep b List.mem_cons_self v hv) (fun r v' h => ?_)
    obtain ⟨rfl,hv'⟩ := h
    exact ih (fun c hc => hstep c (List.mem_cons_of_mem _ hc)) hv'

/-! ### The host name and the accounts -/

/-- Reading back what is there. -/
theorem goes_verifyPaths {paths : List (String × String)}
    (h : ∀ e ∈ paths, v.1.1.files.get? e.1 = some e.2) :
    Goes (fun r v' => r = .ok () ∧ v' = v) (verifyPaths paths) v := by
  induction paths with
  | nil => exact ⟨rfl,rfl⟩
  | cons e paths ih =>
    obtain ⟨path,expected⟩ := e
    have hread := h _ List.mem_cons_self
    apply goes_read
    rw [hread]
    simpa using ih (fun d hd => h d (List.mem_cons_of_mem _ hd))

theorem goes_systemAction {action : Render.Action} (h : Tame action) {contents : Option String}
    (hresolv : v.1.1.files.get? System.resolvConf = contents) :
    Goes (fun r v' => r = .ok () ∧ Kept v v' ∧ v'.1.1.files.get? System.resolvConf = contents)
      (System.applyAction action) v := by
  have hrun : ∀ u : Noted, Kept v u → u.1.1.files.get? System.resolvConf = contents →
      Goes (fun r v' => r = .ok () ∧ Kept v v' ∧ v'.1.1.files.get? System.resolvConf = contents)
        (orHost (Host.run action.argv)) u := by
    intro u hkept hu
    refine (goes_tame h).mono (fun r v' hr => ?_) (fun _ h => h)
    obtain ⟨rfl,rfl⟩ := hr
    exact ⟨rfl,hkept,hu⟩
  cases action with
  | setHostName name domain =>
    apply goes_read
    apply goes_write
    refine hrun _ ⟨rfl,rfl,rfl⟩ ?_
    have hne : System.resolvConf ≠ System.hosts := by decide
    rw [← hresolv]
    simp [hne]
  | _ => exact hrun v (Kept.refl v) hresolv

theorem tame_system {config : ConfigTree} {artifacts : Artifacts} (h : System.render config = .ok artifacts) :
    ∀ action ∈ artifacts.actions, Tame action := by
  cases h
  intro action haction
  obtain haction | haction := List.mem_append.mp haction
  · obtain ⟨name,-,rfl⟩ := List.mem_map.mp haction
    exact ⟨nofun,nofun⟩
  · obtain ⟨zone,-,rfl⟩ := List.mem_map.mp haction
    exact ⟨nofun,nofun⟩

theorem goes_system {config : ConfigTree} {artifacts : Artifacts} (h : System.render config = .ok artifacts) :
    Goes (fun r v' => r = .ok () ∧ Kept v v' ∧ ∀ e ∈ artifacts.allFiles.entries, v'.1.1.files.get? e.1 = some e.2)
      (System.apply artifacts) v := by
  have htame := tame_system h
  cases h
  generalize htext : System.resolv _ _ = text
  apply goes_write
  refine Goes.bind (?_ : Goes (fun r v' => r = .ok () ∧ Kept v v' ∧
    v'.1.1.files.get? System.resolvConf = some text) _ _) ?_
  · exact ⟨rfl,⟨rfl,rfl,rfl⟩,by simp⟩
  · intro r v' hr
    obtain ⟨rfl,hkept,hresolv⟩ := hr
    have hall : ∀ actions, (∀ action ∈ actions, Tame action) →
        Goes (fun r u => r = .ok () ∧ Kept v u ∧ u.1.1.files.get? System.resolvConf = some text)
          (forEach System.applyAction actions) v' := by
      intro actions hactions
      refine goes_forEach (fun action haction u hu => ?_) ⟨hkept,hresolv⟩
      refine (goes_systemAction (hactions action haction) hu.2).mono (fun r u' hr => ?_) (fun _ h => h)
      exact ⟨hr.1,hu.1.trans hr.2.1,hr.2.2⟩
    refine (hall _ htame).mono (fun r u hr => ⟨hr.1,hr.2.1,fun e he => ?_⟩) (fun _ h => h)
    have hone : e = (System.resolvConf,text) := List.mem_singleton.mp he
    rw [hone]
    exact hr.2.2

theorem tame_login {config : ConfigTree} {artifacts : Artifacts} (h : Login.render config = .ok artifacts) :
    ∀ action ∈ artifacts.actions, Tame action := by
  cases h
  intro action haction
  obtain ⟨e,-,haction⟩ := List.mem_flatMap.mp haction
  obtain rfl | haction := List.mem_cons.mp haction
  · exact ⟨nofun,nofun⟩
  · obtain ⟨hash,-,rfl⟩ := List.mem_map.mp haction
    exact ⟨nofun,nofun⟩

theorem goes_loginAction {action : Render.Action} (h : Tame action) :
    Goes (fun r v' => r = .ok () ∧ v' = v) (Login.applyAction action) v := by
  cases action with
  | setPassword name hash => exact goes_runWithSecret ⟨rfl,rfl⟩
  | _ => exact goes_tame h

theorem goes_login {config : ConfigTree} {artifacts : Artifacts} (h : Login.render config = .ok artifacts) :
    Goes (fun r v' => r = .ok () ∧ v' = v) (Login.apply artifacts) v := by
  unfold Login.apply
  refine Goes.bind (goes_forEach (I := fun v' => v' = v) ?_ rfl) (fun r v' hr => ?_)
  · rintro action haction v' rfl
    exact goes_loginAction (tame_login h action haction)
  · obtain ⟨rfl,rfl⟩ := hr
    apply goes_load
    refine goes_forEach (I := fun u => u = v') ?_ rfl
    rintro action haction u rfl
    obtain ⟨name,-,rfl⟩ := List.mem_map.mp haction
    exact goes_tame ⟨nofun,nofun⟩

/-! ### The interfaces -/

theorem run_delete {device : String} {bench : Bench} (h : device ∈ bench.devices) :
    bench.run [] (Render.Action.recreateNetdev device).argv =
      (.ok (),{bench with devices := bench.devices.erase device}) := if_pos h

theorem run_delete_missing {device : String} {bench : Bench} (h : device ∉ bench.devices) :
    bench.run [] (Render.Action.recreateNetdev device).argv =
      (.error "`networkctl delete` failed (exit 1)",bench) := if_neg h

/-- Devices are deleted one after another, up to the first that is not there. -/
theorem goes_deletions {devices : List String} (hdistinct : devices.Nodup) :
    Goes (fun r v' => (∀ device ∈ devices, device ∈ v.1.1.devices) ∧ r = .ok () ∧ v'.2 = v.2 ∧
        v'.1.1.files = v.1.1.files ∧ v'.1.2 = v.1.2 ∨
      ¬(∀ device ∈ devices, device ∈ v.1.1.devices) ∧ ∃ e, r = .error e)
      (forEach (fun device => orHost (Host.run (Render.Action.recreateNetdev device).argv)) devices) v := by
  induction devices generalizing v with
  | nil => exact .inl ⟨nofun,rfl,rfl,rfl,rfl⟩
  | cons device devices ih =>
    obtain ⟨hnot,hrest⟩ := List.nodup_cons.mp hdistinct
    apply goes_run
    by_cases hthere : device ∈ v.1.1.devices
    · rw [run_delete hthere]
      refine (ih hrest).mono (fun r v' hr => ?_) (fun _ h => h)
      have hothers : (∀ d ∈ devices, d ∈ v.1.1.devices.erase device) ↔ ∀ d ∈ devices, d ∈ v.1.1.devices :=
        forall₂_congr (fun d hd => List.mem_erase_of_ne (fun he => hnot (he ▸ hd)))
      have hnote : noteMissing (.run (Render.Action.recreateNetdev device).argv) (some (.ok ())) v.1 v.2 = v.2 :=
        if_pos hthere
      simp only [hnote,hothers] at hr
      rw [List.forall_mem_cons]
      simpa [hthere] using hr
    · rw [run_delete_missing hthere]
      exact .inr ⟨fun h => hthere (h device List.mem_cons_self),_,rfl⟩

/-- The paths of the files of a directory. -/
def paths (managed : Managed) : List (String × String) :=
  managed.files.entries.map (fun e => (managed.dir ++ "/" ++ e.1,e.2))

theorem sync_files (bench : Bench) (managed : Managed) : (bench.sync managed).files =
    (bench.files.filterKeys (fun path => !marked managed.dir managed.marker path)).insertAll (paths managed) := rfl

theorem paths_unique {managed : Managed} {path text text' : String} (h : (path,text) ∈ paths managed)
    (h' : (path,text') ∈ paths managed) : text' = text := by
  obtain ⟨e,he,heq⟩ := List.mem_map.mp h
  obtain ⟨e',he',heq'⟩ := List.mem_map.mp h'
  obtain ⟨hpath,rfl⟩ := Prod.mk.inj heq
  obtain ⟨hpath',rfl⟩ := Prod.mk.inj heq'
  have hsame := hpath.trans hpath'.symm
  rw [← String.toList_inj] at hsame
  simp only [String.toList_append] at hsame
  have hname : e.1 = e'.1 := String.toList_inj.mp (List.append_cancel_left hsame)
  have hget := SortedMap.get?_eq_some_iff.mpr he
  have hget' := SortedMap.get?_eq_some_iff.mpr he'
  rw [hname,hget'] at hget
  exact Option.some.inj hget

theorem get?_synced {bench : Bench} {managed : Managed} {path text : String} (h : (path,text) ∈ paths managed) :
    (bench.sync managed).files.get? path = some text := by
  rw [sync_files]
  exact SortedMap.get?_insertAll_of_unique h (fun w hw => paths_unique h hw)

/-- The files for networkd are not among those for udev. -/
theorem run_path {marker name : String} {files : SortedMap String String} {path text : String}
    (h : (path,text) ∈ paths ⟨Networkd.networkdDir,marker,files⟩) :
    marked Networkd.linkDir name path = false ∧ ∀ files' text', (path,text') ∉ paths ⟨Networkd.linkDir,name,files'⟩ := by
  have hrun : ∃ rest, path.toList = '/' :: 'r' :: rest := by
    obtain ⟨e,-,heq⟩ := List.mem_map.mp h
    obtain ⟨rfl,-⟩ := Prod.mk.inj heq
    exact ⟨_,by simp [Networkd.networkdDir]; rfl⟩
  obtain ⟨rest,hrest⟩ := hrun
  constructor
  · have hdir : (Networkd.linkDir ++ "/").toList = '/' :: 'e' :: "tc/systemd/network/".toList := by decide
    unfold marked
    rw [hrest,hdir]
    cases hsplit : Networkd.splitOnce ('/' :: 'e' :: "tc/systemd/network/".toList) ('/' :: 'r' :: rest) with
    | none => rfl
    | some r =>
      unfold Networkd.splitOnce at hsplit
      simp at hsplit
      obtain ⟨a,b,-,rfl⟩ := hsplit
      rfl
  · intro files' text' hmem
    obtain ⟨e,-,heq⟩ := List.mem_map.mp hmem
    obtain ⟨rfl,-⟩ := Prod.mk.inj heq
    simp [Networkd.linkDir] at hrest

/-- What is to be done on the host for the interfaces of a configuration. -/
theorem networkd_rendered {config : ConfigTree} {artifacts : Artifacts} (h : Networkd.render config = .ok artifacts) :
    ∃ nets links, artifacts = ⟨[⟨Networkd.networkdDir,managedMarker,nets⟩,⟨Networkd.linkDir,managedMarker,links⟩],
      SortedMap.empty,[.reloadNetworkd]⟩ := by
  cases h
  exact ⟨_,_,rfl⟩

theorem goes_networkd {config : ConfigTree} {artifacts : Artifacts} (h : Networkd.render config = .ok artifacts) :
    Goes (fun r v' =>
        ((∀ device ∈ Networkd.recreations (v.1.2.get? "networkd") artifacts, device ∈ v.1.1.devices) ∧ r = .ok () ∧
          v'.2 = v.2 ∧ v'.1.2 = v.1.2 ∧ ∀ e ∈ artifacts.allFiles.entries, v'.1.1.files.get? e.1 = some e.2) ∨
        ¬(∀ device ∈ Networkd.recreations (v.1.2.get? "networkd") artifacts, device ∈ v.1.1.devices) ∧
          ∃ e, r = .error e)
      (Networkd.apply artifacts) v := by
  obtain ⟨nets,links,hshape⟩ := networkd_rendered h
  have hdistinct : (Networkd.recreations (v.1.2.get? "networkd") artifacts).Nodup := by
    unfold Networkd.recreations
    exact (sorted_insertElems List.Pairwise.nil).imp (fun hlt => hlt.ne)
  generalize hdevices : Networkd.recreations (v.1.2.get? "networkd") artifacts = devices at hdistinct ⊢
  have hfiles : ∀ e ∈ artifacts.allFiles.entries,
      ((v.1.1.sync ⟨Networkd.networkdDir,managedMarker,nets⟩).sync
        ⟨Networkd.linkDir,managedMarker,links⟩).files.get? e.1 = some e.2 := by
    intro e he
    have hmem : e ∈ paths ⟨Networkd.networkdDir,managedMarker,nets⟩ ++ paths ⟨Networkd.linkDir,managedMarker,links⟩ := by
      rw [hshape] at he
      have hget := SortedMap.get?_eq_some_iff.mpr (show (e.1,e.2) ∈ _ from he)
      apply SortedMap.mem_of_get?_insertAll
      rw [SortedMap.insertAll,List.foldl_append]
      exact hget
    obtain hmem | hmem := List.mem_append.mp hmem
    · obtain ⟨hunmarked,hnot⟩ := run_path hmem
      rw [sync_files,SortedMap.get?_insertAll_of_notMem (hnot links),SortedMap.get?_filterKeys,hunmarked]
      exact get?_synced hmem
    · exact get?_synced hmem
  rw [hshape]
  apply goes_sync
  apply goes_sync
  apply goes_load
  simp only [Prog.done_bind]
  rw [← hshape,hdevices]
  have hdeletions := @goes_deletions (((v.1.1.sync ⟨Networkd.networkdDir,managedMarker,nets⟩).sync
    ⟨Networkd.linkDir,managedMarker,links⟩,v.1.2),v.2) devices hdistinct
  refine Goes.bind hdeletions (fun r v' hr => ?_)
  obtain ⟨hthere,rfl,hmissing,hsynced,hstore⟩ | ⟨hgone,e,rfl⟩ := hr
  · apply goes_run
    refine .inl ⟨hthere,rfl,hmissing,hstore,fun e he => ?_⟩
    exact (congrArg (fun files => SortedMap.get? files e.1) hsynced).trans (hfiles e he)
  · exact .inr ⟨hgone,e,rfl⟩

/-! ### A whole apply -/

/-- Every renderer accepts what it makes of a configuration. -/
def Accepted (zones : List String) (config : ConfigTree) : Prop :=
  ∀ renderer ∈ renderers (Shipped.schema zones), ∀ artifacts, renderer.render config = .ok artifacts →
    renderer.check artifacts = .ok ()

/-- Every device that was described when the interfaces were last applied is there, or is to be as it was. -/
def Present (config : ConfigTree) (w : Bench × Store) : Prop :=
  ∀ remembered artifacts, w.2.get? "networkd" = some remembered → Networkd.render config = .ok artifacts →
    ∀ file old device, (Networkd.files remembered).get? file = some old → Networkd.device file = some device →
      device ∈ w.1.devices ∨
        ∃ new, (Networkd.files artifacts).get? file = some new ∧ Networkd.needsRecreating old new = false

theorem mem_recreations {remembered artifacts : Artifacts} {device : String} :
    device ∈ Networkd.recreations (some remembered) artifacts ↔
      ∃ file old, (Networkd.files remembered).get? file = some old ∧ Networkd.device file = some device ∧
        ∀ new, (Networkd.files artifacts).get? file = some new → Networkd.needsRecreating old new = true := by
  unfold Networkd.recreations
  rw [mem_insertElems,List.mem_filterMap]
  simp only [List.not_mem_nil,or_false,Option.map_some,Option.getD_some,Prod.exists,← SortedMap.get?_eq_some_iff]
  refine exists_congr (fun file => exists_congr (fun old => and_congr_right (fun _ => ?_)))
  rw [Option.bind_eq_some_iff]
  constructor
  · intro h
    obtain ⟨other,hother,hgoes⟩ := h
    cases hnew : (Networkd.files artifacts).get? file with
    | none =>
      rw [hnew] at hgoes
      refine ⟨hother.trans hgoes,fun text htext => ?_⟩
      cases htext
    | some new =>
      rw [hnew] at hgoes
      dsimp only at hgoes
      split_ifs at hgoes with hneeds
      refine ⟨hother.trans hgoes,fun text htext => ?_⟩
      rw [← Option.some.inj htext]
      exact hneeds
  · intro h
    obtain ⟨hdevice,hneeds⟩ := h
    refine ⟨device,hdevice,?_⟩
    cases hnew : (Networkd.files artifacts).get? file with
    | none => rfl
    | some new => exact if_pos (hneeds new hnew)

/-- What is to be deleted is there. -/
theorem present_iff {config : ConfigTree} {w : Bench × Store} {artifacts : Artifacts}
    (h : Networkd.render config = .ok artifacts) :
    Present config w ↔ ∀ device ∈ Networkd.recreations (w.2.get? "networkd") artifacts, device ∈ w.1.devices := by
  unfold Present
  cases hremembered : w.2.get? "networkd" with
  | none =>
    refine iff_of_true nofun (fun device hdevice => ?_)
    cases hdevice
  | some remembered =>
    constructor
    · intro hpresent device hdevice
      obtain ⟨file,old,hold,hname,hneeds⟩ := mem_recreations.mp hdevice
      obtain hthere | ⟨new,hnew,hsame⟩ := hpresent remembered artifacts rfl h file old device hold hname
      · exact hthere
      · rw [hneeds new hnew] at hsame
        cases hsame
    · intro hall remembered' artifacts' hsame hrender file old device hold hname
      obtain rfl := Option.some.inj hsame
      obtain rfl := Except.ok.inj (h.symm.trans hrender)
      by_cases hkept : ∃ new, (Networkd.files artifacts).get? file = some new ∧ Networkd.needsRecreating old new = false
      · exact .inr hkept
      · refine .inl (hall device (mem_recreations.mpr ⟨file,old,hold,hname,fun new hnew => ?_⟩))
        by_contra hsame
        exact hkept ⟨new,hnew,Bool.eq_false_iff.mpr hsame⟩

variable {zones : List String} {config : ConfigTree}

/-- What one renderer does in an apply. -/
theorem goes_step {renderer : Renderer} {artifacts : Artifacts} {applied : List Renderer} {rest : Pipeline.Plan}
    {post : Except CommitError Unit → Noted → Prop}
    (h : Goes (fun r v' => (r = .ok () → Goes post (Pipeline.applyAll (renderer::applied) rest) v') ∧
        ∀ e, r = .error e → ∀ r' v', (∃ e', r' = .error e') → post r' v')
      (renderer.apply artifacts >>= fun r => match r with
        | .error e => return .error e
        | .ok () => renderer.verify artifacts) v) :
    Goes post (Pipeline.applyAll applied ((renderer,artifacts)::rest)) v := by
  unfold Pipeline.applyAll
  refine Goes.bind h (fun r v' hr => ?_)
  cases r with
  | ok u => exact hr.1 rfl
  | error e =>
    refine Goes.bind (goes_anyhow _ v') (fun r' v'' _ => ?_)
    cases r' with
    | ok u => exact hr.2 e rfl _ _ ⟨_,rfl⟩
    | error problems => exact hr.2 e rfl _ _ ⟨_,rfl⟩

theorem goes_rememberAll (plan : Pipeline.Plan) :
    Goes (fun _ v' => v'.2 = v.2) (Pipeline.rememberAll plan) v := by
  induction plan generalizing v with
  | nil => rfl
  | cons e plan ih =>
    apply goes_save
    exact @ih ((v.1.1,v.1.2.insert e.1.name e.2),v.2)

theorem checkAll_eq_ok {plan : Pipeline.Plan} :
    Pipeline.checkAll plan = .ok () ↔ ∀ e ∈ plan, e.1.check e.2 = .ok () := by
  induction plan with
  | nil => exact iff_of_true rfl nofun
  | cons e plan ih =>
    rw [Pipeline.checkAll,List.forall_mem_cons]
    cases hcheck : e.1.check e.2 with
    | error problem => simp
    | ok u => simpa [hcheck] using ih

theorem accepted_iff {plan : Pipeline.Plan}
    (h : Pipeline.renderAll config (renderers (Shipped.schema zones)) = .ok plan) :
    Accepted zones config ↔ Pipeline.checkAll plan = .ok () := by
  obtain ⟨a,b,c,ha,hb,hc,hplan⟩ := renderAll_shipped zones config
  obtain rfl := Except.ok.inj (hplan.symm.trans h)
  have hrender : ∀ {renderer : Renderer} {artifacts : Artifacts}, renderer.render config = .ok artifacts →
      ((∀ found, renderer.render config = .ok found → renderer.check found = .ok ()) ↔
        renderer.check artifacts = .ok ()) := by
    intro renderer artifacts hartifacts
    constructor
    · exact fun hall => hall artifacts hartifacts
    · intro hcheck found hfound
      obtain rfl := Except.ok.inj (hartifacts.symm.trans hfound)
      exact hcheck
  unfold Accepted
  rw [checkAll_eq_ok,renderers_shipped]
  simp only [List.forall_mem_cons,List.not_mem_nil,false_implies,implies_true,and_true]
  rw [@hrender SystemRenderer a ha,@hrender LoginRenderer b hb,@hrender NetworkdRenderer c hc]

theorem goes_refused (h : ¬Accepted zones config) :
    Goes (fun r _ => ∃ e, r = .error e) (Pipeline.apply (renderers (Shipped.schema zones)) config) v := by
  obtain ⟨a,b,c,-,-,-,hplan⟩ := renderAll_shipped zones config
  rw [accepted_iff hplan] at h
  unfold Pipeline.apply
  rw [hplan]
  dsimp only
  cases hcheck : Pipeline.checkAll [(SystemRenderer,a),(LoginRenderer,b),(NetworkdRenderer,c)] with
  | error e => exact ⟨e,rfl⟩
  | ok u => exact absurd hcheck h

/-- An apply of what is accepted goes through just where no device is missing. -/
theorem goes_apply (h : Accepted zones config) :
    Goes (fun r v' => Present config v.1 ∧ r = .ok () ∧ v'.2 = v.2 ∨ ¬Present config v.1 ∧ ∃ e, r = .error e)
      (Pipeline.apply (renderers (Shipped.schema zones)) config) v := by
  obtain ⟨a,b,c,ha,hb,hc,hplan⟩ := renderAll_shipped zones config
  have hcheck := (accepted_iff hplan).mp h
  have hpresent := @present_iff config v.1 c hc
  unfold Pipeline.apply
  rw [hplan]
  dsimp only
  rw [hcheck,hpresent]
  dsimp only
  have hall : Goes (fun r v' =>
      (∀ device ∈ Networkd.recreations (v.1.2.get? "networkd") c, device ∈ v.1.1.devices) ∧ r = .ok () ∧ v'.2 = v.2 ∨
      ¬(∀ device ∈ Networkd.recreations (v.1.2.get? "networkd") c, device ∈ v.1.1.devices) ∧ ∃ e, r = .error e)
      (Pipeline.applyAll [] [(SystemRenderer,a),(LoginRenderer,b),(NetworkdRenderer,c)]) v := by
    refine goes_step (Goes.bind (goes_system ha) (fun r v₁ hr => ?_))
    obtain ⟨rfl,hkept,hfiles⟩ := hr
    refine (goes_verifyPaths hfiles).mono (fun r v₂ hr => ⟨fun _ => ?_,fun e he => ?_⟩) (fun _ h => h)
    · obtain ⟨rfl,rfl⟩ := hr
      refine goes_step (Goes.bind (goes_login hb) (fun r v₃ hr => ?_))
      obtain ⟨rfl,rfl⟩ := hr
      refine ⟨fun _ => ?_,nofun⟩
      refine goes_step (Goes.bind (goes_networkd hc) (fun r v₄ hr => ?_))
      rw [hkept.store,hkept.devices] at hr
      obtain ⟨hthere,rfl,hmissing,-,hfiles⟩ | ⟨hgone,e,rfl⟩ := hr
      · refine (goes_verifyPaths hfiles).mono (fun r v₅ hr => ⟨fun _ => ?_,fun e he => ?_⟩) (fun _ h => h)
        · obtain ⟨rfl,rfl⟩ := hr
          exact .inl ⟨hthere,rfl,hmissing.trans hkept.missing⟩
        · rw [hr.1] at he
          cases he
      · exact ⟨nofun,fun _ _ r' _ hr' => .inr ⟨hgone,hr'⟩⟩
    · rw [hr.1] at he
      cases he
  refine Goes.bind hall (fun r v' hr => ?_)
  obtain ⟨hthere,rfl,hmissing⟩ | ⟨hgone,e,rfl⟩ := hr
  · refine Goes.bind (goes_rememberAll _) (fun _ v'' hv'' => ?_)
    exact .inl ⟨hthere,rfl,hv''.trans hmissing⟩
  · exact .inr ⟨hgone,e,rfl⟩

/-! ### Booting -/

/-- A box with a schema that is compiled in, and some time zones. -/
def shipping (zones : List String) : Site (Bench × Store) (ℕ → HostOp → HostFate (List String)) :=
  Site.onMachine (Shipped.schema zones) (renderers (Shipped.schema zones)) machine reboot

/-- A step of the daemon that goes through, on a bench where nothing is broken. -/
def Calm (f : Fate (ℕ → HostOp → HostFate (List String))) : Prop := f.io = .ok ∧ f.host = fun _ _ => ⟨[],.ok⟩

/-- A boot that finds a saved configuration it can use, where nothing but devices may be missing. -/
structure FindsSaved (zones : List String) (sys : System (Bench × Store))
    (ev : Event (ℕ → HostOp → HostFate (List String))) (s : State) (config : ConfigTree) : Prop where
  boots : ev.action = .boot
  process : sys.process = some ⟨.resumed,s⟩
  unrecovered : s.recoveredGeneration = none
  accepted : ((saved (Shipped.schema zones)).run (perform (shipping zones)) ev.fate 0 sys.box).1 = some (.ok (some config))
  calm : ∀ n e, Calm (ev.fate n e)

/-- It asks for no device to be deleted that is not there, and ends with the configuration. -/
structure EndsSaved (zones : List String) (sys : System (Bench × Store))
    (ev : Event (ℕ → HostOp → HostFate (List String))) (s : State) (config : ConfigTree) : Prop where
  unmissed : ((Pipeline.apply (renderers (Shipped.schema zones)) config).run (watched (onHost machine) noteMissing)
    (fun _ _ => ⟨[],.ok⟩) 0 (sys.box.host,[])).2.2 = []
  ended : ∃ changes s' box, (boot (Shipped.schema zones) s).run (perform (shipping zones)) ev.fate 0 sys.box =
    (some (.applied changes,s'),box) ∧ s'.running = config

variable {zones : List String} {sys : System (Bench × Store)} {ev : Event (ℕ → HostOp → HostFate (List String))}
  {s : State} {config : ConfigTree} {box : Box (Bench × Store)}

/-- How a program of the daemon ends where each of its steps is calm. -/
abbrev Passes {α : Type} (zones : List String) (post : α → Box (Bench × Store) → Prop) (program : Act α)
    (box : Box (Bench × Store)) : Prop :=
  program.Ends (perform (shipping zones)) (fun _ f _ => Calm f) post (fun _ => False) box

theorem passes_apply {α : Type} {post : α → Box (Bench × Store) → Prop} {k : Except CommitError Unit → Act α}
    {q : Except CommitError Unit → Prop}
    (h : Goes (fun r _ => q r) (Pipeline.apply (renderers (Shipped.schema zones)) config) (box.host,[]))
    (hk : ∀ r box, q r → Passes zones post (k r) box) : Passes zones post (.perform (.apply config) k) box := by
  intro f hf
  have hrun := h.run (Prog.obeys_of_forall (n := 0) (fun _ _ _ => rfl) : Prog.Obeys _ _ (fun _ _ => ⟨[],.ok⟩) 0 _ _)
  obtain ⟨hanswer,-⟩ := run_watched (onHost machine) noteMissing (fun _ _ => ⟨[],.ok⟩) 0
    (Pipeline.apply (renderers (Shipped.schema zones)) config) box.host []
  have hperform : perform (shipping zones) (.apply config) f box =
      (((Pipeline.apply (renderers (Shipped.schema zones)) config).run (onHost machine) (fun _ _ => ⟨[],.ok⟩) 0
        box.host).1,{box with host := ((Pipeline.apply (renderers (Shipped.schema zones)) config).run (onHost machine)
          (fun _ _ => ⟨[],.ok⟩) 0 box.host).2}) := by
    rw [← hf.2]
    rfl
  rw [hperform,← hanswer]
  cases hresult : ((Pipeline.apply (renderers (Shipped.schema zones)) config).run (watched (onHost machine) noteMissing)
      (fun _ _ => ⟨[],.ok⟩) 0 (box.host,[])) with
  | mk answer v =>
    rw [hresult] at hrun
    cases answer with
    | none => exact hrun
    | some r => exact hk r _ hrun

/-- Steps whose answers do not matter. -/
theorem passes_write {α : Type} {post : α → Box (Bench × Store) → Prop} {e : Effect} {k : e.Answer → Act α}
    (h : ∀ r box, Passes zones post (k r) box) (hanswers : ∀ f, Calm f → ((perform (shipping zones) e f box).1).isSome) :
    Passes zones post (.perform e k) box := by
  intro f hf
  have hsome := hanswers f hf
  cases hresult : perform (shipping zones) e f box with
  | mk answer box' =>
    rw [hresult] at hsome
    cases answer with
    | none => cases hsome
    | some r => exact h r box'

theorem passes_adopt {post : State → Box (Bench × Store) → Prop} (h : ∀ box, post (s.install config) box) :
    Passes zones post (adopt s config) box := by
  refine passes_write (fun _ box => h box) (fun f hf => ?_)
  simp [perform,hf.1,IoFate.write]

theorem passes_noteOutcome {post : Unit → Box (Bench × Store) → Prop} {outcome : Outcome} (h : ∀ box, post () box) :
    Passes zones post (noteOutcome outcome) box := by
  unfold noteOutcome
  cases outcome.failed with
  | none => exact passes_write (fun _ box => h box) (fun f hf => by simp [perform,hf.1,IoFate.write])
  | some reason => exact passes_write (fun _ box => h box) (fun f hf => by simp [perform,hf.1,IoFate.write])

/-- Boot ends with the configuration or comes up on the defaults, by how its apply ends. -/
theorem passes_applyAtBoot {q : Prop}
    (h : Goes (fun r _ => q ∧ r = .ok () ∨ ¬q ∧ ∃ e, r = .error e)
      (Pipeline.apply (renderers (Shipped.schema zones)) config) (box.host,[])) :
    Passes zones (fun r _ => q ∧ (∃ changes, r.1 = .applied changes) ∧ r.2.running = config ∨
        ¬q ∧ ∃ reason, r.1 = .defaults reason) (applyAtBoot (Shipped.schema zones) s config) box := by
  refine passes_apply h (fun r box hr => ?_)
  obtain ⟨hq,rfl⟩ | ⟨hq,e,rfl⟩ := hr
  · simp only [Prog.done_bind]
    refine Prog.Ends.bind (passes_adopt (fun box => ?_))
    exact .inl ⟨hq,⟨_,rfl⟩,rfl⟩
  · refine passes_apply (q := fun _ => True) (goes_anyhow _ _) (fun _ box _ => ?_)
    simp only [Prog.done_bind]
    refine Prog.Ends.bind (passes_adopt (fun box => ?_))
    exact .inr ⟨hq,_,rfl⟩

theorem passes_saved {text : String} (hsaved : box.saved = some text) (hparse : parse text = .ok config)
    (hvalid : savedViolations (Shipped.schema zones) config = []) :
    Passes zones (fun r box' => r = .ok (some config) ∧ box' = box) (saved (Shipped.schema zones)) box := by
  unfold saved
  simp only [Prog.bind_eq,Prog.call_bind]
  intro f hf
  have hread : perform (shipping zones) .readSaved f box = (some (.ok (some text)),box) := by
    simp [perform,hf.1,IoFate.read,IoFate.look,hsaved]
  rw [hread]
  simp only [hparse,hvalid]
  exact ⟨rfl,rfl⟩

/-- The whole boot, where a saved configuration is found that can be used. -/
theorem passes_boot {q : Prop} (hnone : s.recoveredGeneration = none) {text : String} (hsaved : box.saved = some text)
    (hparse : parse text = .ok config) (hvalid : savedViolations (Shipped.schema zones) config = [])
    (h : Goes (fun r _ => q ∧ r = .ok () ∨ ¬q ∧ ∃ e, r = .error e)
      (Pipeline.apply (renderers (Shipped.schema zones)) config) (box.host,[])) :
    Passes zones (fun r _ => q ∧ (∃ changes, r.1 = .applied changes) ∧ r.2.running = config ∨
        ¬q ∧ ∃ reason, r.1 = .defaults reason) (boot (Shipped.schema zones) s) box := by
  unfold boot
  rw [hnone]
  simp only [Prog.bind_eq]
  apply Prog.Ends.bind
  apply Prog.Ends.bind
  refine (passes_saved hsaved hparse hvalid).mono (fun r box' hr => ?_) (fun _ h => h)
  obtain ⟨rfl,rfl⟩ := hr
  refine (passes_applyAtBoot h).mono (fun r box'' hr => ?_) (fun _ h => h)
  apply Prog.Ends.bind
  exact passes_noteOutcome (fun _ => hr)

/-- What boot was given is what is on the disk. -/
theorem saved_accepted {fate : ℕ → Effect → Fate (ℕ → HostOp → HostFate (List String))} {n : ℕ}
    (hcalm : ∀ n e, Calm (fate n e))
    (h : ((saved (Shipped.schema zones)).run (perform (shipping zones)) fate n box).1 = some (.ok (some config))) :
    ∃ text, box.saved = some text ∧ parse text = .ok config ∧ savedViolations (Shipped.schema zones) config = [] := by
  cases hsaved : box.saved with
  | some text => exact ⟨text,rfl,(saved_run hsaved (fun n e => (hcalm n e).1)).mp h⟩
  | none =>
    unfold saved at h
    simp [Prog.run,perform,(hcalm n .readSaved).1,IoFate.read,IoFate.look,hsaved] at h

/-- What stands in the way of a saved configuration when the daemon comes to apply it. -/
def Clear (zones : List String) (config : ConfigTree) (w : Bench × Store) : Prop :=
  Accepted zones config ∧ Present config w

theorem goes_exactly (w : Bench × Store) :
    Goes (fun r v => (Clear zones config w ∧ r = .ok () ∧ v.2 = []) ∨ ¬Clear zones config w ∧ ∃ e, r = .error e)
      (Pipeline.apply (renderers (Shipped.schema zones)) config) (w,[]) := by
  by_cases haccepted : Accepted zones config
  · refine (goes_apply haccepted).mono (fun r v hr => ?_) (fun _ h => h)
    obtain ⟨hpresent,hok,hnone⟩ | ⟨hgone,he⟩ := hr
    · exact .inl ⟨⟨haccepted,hpresent⟩,hok,hnone⟩
    · exact .inr ⟨fun h => hgone h.2,he⟩
  · exact (goes_refused haccepted).mono (fun r v hr => .inr ⟨fun h => haccepted h.1,hr⟩) (fun _ h => h)

/-- A boot with a saved configuration ends with it, and asks for nothing that is not there, just where nothing
stands in its way. -/
theorem endsSaved_iff (h : FindsSaved zones sys ev s config) :
    EndsSaved zones sys ev s config ↔ Clear zones config sys.box.host := by
  obtain ⟨text,hsaved,hparse,hvalid⟩ := saved_accepted h.calm h.accepted
  have hall := @goes_exactly zones config sys.box.host
  have hboot := (passes_boot h.unrecovered hsaved hparse hvalid (hall.mono
    (fun r v hr => hr.imp (fun hok => ⟨hok.1,hok.2.1⟩) id) (fun _ h => h))).run
      (Prog.obeys_of_forall (n := 0) (fun n e _ => h.calm n e))
  have happly := hall.run (Prog.obeys_of_forall (n := 0) (fun _ _ _ => rfl) : Prog.Obeys _ _ (fun _ _ => ⟨[],.ok⟩) 0 _ _)
  constructor
  · intro hends
    obtain ⟨changes,s',box,hrun,-⟩ := hends.ended
    rw [hrun] at hboot
    obtain ⟨hclear,-⟩ | ⟨-,reason,hreason⟩ := hboot
    · exact hclear
    · cases hreason
  · intro hclear
    constructor
    · cases hrun : (Pipeline.apply (renderers (Shipped.schema zones)) config).run (watched (onHost machine) noteMissing)
          (fun _ _ => ⟨[],.ok⟩) 0 (sys.box.host,[]) with
      | mk answer v =>
        rw [hrun] at happly
        cases answer with
        | none => exact happly.elim
        | some r =>
          obtain ⟨-,-,hnone⟩ | ⟨hnot,-⟩ := happly
          · exact hnone
          · exact absurd hclear hnot
    · cases hrun : (boot (Shipped.schema zones) s).run (perform (shipping zones)) ev.fate 0 sys.box with
      | mk answer box =>
        rw [hrun] at hboot
        cases answer with
        | none => exact hboot.elim
        | some r =>
          obtain ⟨-,⟨changes,happlied⟩,hrunning⟩ | ⟨hnot,-⟩ := hboot
          · exact ⟨changes,r.2,box,by rw [← happlied],hrunning⟩
          · exact absurd hclear hnot

/-- Over any run, with events of any kind and fate, every boot that finds a saved configuration it can use ends
with it and misses no device, just where every such boot finds nothing in its way. -/
theorem boots_saved_iff (zones : List String) (sys : System (Bench × Store))
    (evs : List (Event (ℕ → HostOp → HostFate (List String)))) :
    Along (System.step (shipping zones))
        (fun sys ev => ∀ s config, FindsSaved zones sys ev s config → EndsSaved zones sys ev s config) sys evs ↔
      Along (System.step (shipping zones))
        (fun sys ev => ∀ s config, FindsSaved zones sys ev s config → Clear zones config sys.box.host) sys evs := by
  induction evs generalizing sys with
  | nil => exact Iff.rfl
  | cons ev evs ih =>
    rw [along_cons,along_cons,ih]
    exact and_congr_left (fun _ => forall₂_congr (fun s config => forall_congr' endsSaved_iff))

/-- A bridge is committed and not saved, and the box is rebooted. -/
def unsaved : List (Event (ℕ → HostOp → HostFate (List String))) :=
  (triedActions.take 4 ++
    [Action.request ⟨0,"root"⟩ (.set "0123456789abcdef" ["interfaces","bridge","br0"] none),
     .request ⟨0,"root"⟩ (.commit "0123456789abcdef" none none),.reboot,.start,.resume]).map (event [])

/-- A box with a name in its saved configuration. -/
def named : Box (Bench × Store) :=
  Box.fresh (default,SortedMap.empty) (some "system \x7b\n    host-name core\n\x7d\n")

def rebooted : System (Bench × Store) := unsaved.foldl (System.step (shipping [])) ⟨named.reboot (shipping []),none⟩

/-- What boot reads then, where it has no use for the bridge. -/
def leavesOut : Option (Except String (Option ConfigTree)) → Bool
  | some (.ok (some config)) =>
    match Networkd.render config with
    | .ok artifacts => ((Networkd.files artifacts).get? "20-ns-br0.netdev").isNone
    | .error _ => false
  | _ => false

def stops (sys : System (Bench × Store)) : Bool :=
  sys.process.any (fun p => decide (p.phase = .resumed) && p.state.recoveredGeneration.isNone) &&
  leavesOut ((saved (Shipped.schema [])).run (perform (shipping [])) (event [] .boot).fate 0 sys.box).1 &&
  ((sys.box.host.2.get? "networkd").bind (fun a => (Networkd.files a).get? "20-ns-br0.netdev")).isSome &&
  sys.box.host.1.devices.isEmpty

theorem unsaved_stops : stops rebooted = true := by decide +kernel

theorem not_clear_of_stops (h : stops sys = true) :
    ∃ s config, FindsSaved [] sys (event [] .boot) s config ∧ ¬Clear [] config sys.box.host := by
  unfold stops at h
  simp only [Bool.and_eq_true] at h
  obtain ⟨⟨⟨hprocess,hread⟩,hthere⟩,hgone⟩ := h
  obtain ⟨s,hsome,hnone⟩ : ∃ s, sys.process = some ⟨.resumed,s⟩ ∧ s.recoveredGeneration = none := by
    cases hsome : sys.process with
    | none => simp [hsome] at hprocess
    | some p =>
      obtain ⟨phase,s⟩ := p
      simp only [hsome,Option.any_some,Bool.and_eq_true,decide_eq_true_eq,Option.isNone_iff_eq_none] at hprocess
      obtain ⟨rfl,hnone⟩ := hprocess
      exact ⟨s,rfl,hnone⟩
  generalize hanswer : ((saved (Shipped.schema [])).run (perform (shipping [])) (event [] .boot).fate 0 sys.box).1 =
    answer at hread
  unfold leavesOut at hread
  split at hread
  · next config =>
    cases hrender : Networkd.render config with
    | error e => simp [hrender] at hread
    | ok artifacts =>
      rw [hrender] at hread
      obtain ⟨old,hold⟩ := Option.isSome_iff_exists.mp hthere
      obtain ⟨remembered,hremembered,hfile⟩ := Option.bind_eq_some_iff.mp hold
      have hdevice : Networkd.device "20-ns-br0.netdev" = some "br0" := by decide
      refine ⟨s,config,⟨rfl,hsome,hnone,hanswer,fun _ _ => ⟨rfl,rfl⟩⟩,fun hclear => ?_⟩
      obtain hin | ⟨new,hnew,-⟩ := hclear.2 remembered artifacts hremembered hrender _ old "br0" hfile hdevice
      · rw [List.isEmpty_iff.mp hgone] at hin
        cases hin
      · rw [Option.isNone_iff_eq_none.mp hread] at hnew
        cases hnew
  · cases hread

/-- The bridge is to be deleted and is not there any more, and the saved configuration is dropped. -/
theorem unsaved_bridge : ¬Along (System.step (shipping []))
    (fun sys ev => ∀ s config, FindsSaved [] sys ev s config → EndsSaved [] sys ev s config)
    ⟨named.reboot (shipping []),none⟩ (unsaved ++ [event [] .boot]) := by
  intro h
  obtain ⟨-,hboot,-⟩ := along_append.mp h
  obtain ⟨s,config,hfinds,hnot⟩ := not_clear_of_stops unsaved_stops
  exact hnot ((endsSaved_iff hfinds).mp (hboot s config hfinds))

end Bench
end Nightshade.Configd
