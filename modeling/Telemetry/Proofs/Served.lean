import Telemetry.Proofs.Courses
import Telemetry.Proofs.Servable
import Telemetry.Proofs.Serving

/-! Datasets that are served. Once the zone of a dataset is attached, rows and rewinds in any order
and operations on its domain at any time cannot make a pass over it fail, and each pass finds in the
register of every column the word that was last written there. Whether the zone can be attached is
told by the names of the columns, but for names that a registry mistakes for each other. -/
namespace Telemetry

open Register (Window)
open Replay (Course Engine Log Scene)
open Replay.Engine (create metricSpec rowWords windowSize)

namespace Domain

structure Fresh {δ : Type} (d : Domain δ) : Prop where
  zones : d.zones = []
  tree : d.treePoisoned = false
  slot : d.slotPoisoned = false

theorem create_fresh {δ : Type} (id registry : Nat) (config : DomainConfig) (s : Shared) :
    (create id registry config s : Domain δ × Shared).1.Fresh := ⟨rfl, rfl, rfl⟩

/-- A domain that has the zone of a replay and no other, both of its locks being sound. -/
structure Serves (e : Engine) (handle : ZoneHandle) (d : Domain StockDriver)
    (z : Zone StockDriver) : Prop where
  home : handle.domain = d.id
  tree : d.treePoisoned = false
  slot : d.slotPoisoned = false
  zones : d.zones = [z]
  handle : z.handle = some handle
  exposes : z.Exposes e

variable {e : Engine} {handle : ZoneHandle} {d : Domain StockDriver} {z : Zone StockDriver}
  {s : Shared} {env : Surroundings}

theorem Fresh.serves (fresh : d.Fresh) (present : d.registry < s.registries.length)
    (done : (d.allocZone env e.zoneSpec s).outcome = .ok handle) :
    ∃ z, (d.allocZone env e.zoneSpec s).domain.Serves e handle z ∧ z.enabled = true := by
  cases made : Zone.alloc e.zoneSpec with
  | error f =>
    simp only [allocZone, made] at done
    cases done
  | ok z =>
    simp only [allocZone, made] at done ⊢
    obtain ⟨rfl, -, w, carried, -, known, domain⟩ :=
      attachZone_ok (Zone.alloc_bare made) present done
    obtain ⟨blocks, each, rfl⟩ := Zone.alloc_ok made
    obtain ⟨b, rest, own, none, rfl⟩ := List.forall₂_cons_left_iff.mp each
    rw [List.forall₂_nil_left_iff.mp none] at carried
    have exposes : w.Exposes e := Zone.Exposes.carried ⟨b, rfl, .alloc own⟩ carried.blocks
    rw [domain]
    exact ⟨w, ⟨rfl, fresh.tree, fresh.slot, by rw [fresh.zones]; rfl, known, exposes⟩,
      carried.enabled⟩

variable {words : List UInt64}

/-- No operation takes the zone away, or the soundness of a lock. -/
theorem Serves.operate (h : d.Serves e handle z) (given : env.threadError = none)
    (held : env.windows[e.window]? = some (.ofWords words))
    (sized : words.length = e.dataset.columns.length) (fits : windowSize e.dataset < 2 ^ 64)
    (operation : Operation) (s : Shared) :
    (∃ w, (operation.run env d s).domain.Serves e handle w) ∧
      (operation.Means handle → (operation.run env d s).outcome = .ok ()) := by
  have smooth (effect : Effect) : (effect.run env d.zones s).1 = none := by
    obtain ⟨w, t, done, -⟩ := h.exposes.effect_ok held sized fits effect s
    rw [h.zones, done]
  constructor
  · obtain ⟨w, t, done, exposes, known⟩ :=
      h.exposes.effect_ok held sized fits (operation.effect d) s
    have becomes := operation.run_becomes env d s
    rw [h.zones, done] at becomes
    exact ⟨w, h.home.trans becomes.frame.id.symm, by rw [becomes.poisoned, h.tree]; rfl,
      operation.run_slot h.tree h.slot given smooth, becomes.zones, known.trans h.handle, exposes⟩
  · have placed : d.position handle = some 0 := by
      rw [position, h.zones, List.findIdx?_cons, h.handle, beq_self_eq_true]
      rfl
    have there : d.zones[0]? = some z := by
      rw [h.zones]
      rfl
    exact operation.run_ok h.tree h.slot given smooth h.home placed there

end Domain

/-- All that a replay and the domain of its zone can come to: rows and rewinds in any order,
operations on the domain at any time, and whatever else leaves the bases, the window and the domain
alone. -/
inductive Service (first : Engine) (start : Domain StockDriver) (opening : Scene) :
    Nat → Log → Engine → Domain StockDriver → Scene → Prop
  | opens : Service first start opening 0 [] first start opening
  | writes {k : Nat} {log : Log} {e : Engine} {d : Domain StockDriver} {s : Scene}
      {row : DataRow} : Service first start opening k log e d s → row ∈ e.dataset.rows →
      Service first start opening k (log ++ [rowWords e.dataset.columns e.base row.cells]) e d
        (e.applyRow row s)
  | rewinds {k : Nat} {log : Log} {e : Engine} {d : Domain StockDriver} {s : Scene} :
      Service first start opening k log e d s →
      Service first start opening (k + 1) log e.rewind d s
  | operates {k : Nat} {log : Log} {e : Engine} {d : Domain StockDriver} {s : Scene} (now : Nat)
      (operation : Operation) : Service first start opening k log e d s →
      Service first start opening k log e (operation.run (.plain s.windows now) d s.shared).domain
        ⟨s.windows, (operation.run (.plain s.windows now) d s.shared).shared⟩
  | others {k : Nat} {log : Log} {e f : Engine} {d : Domain StockDriver} {s t : Scene} :
      Service first start opening k log e d s → e.Kept f → f.base = e.base →
      t.windows[e.window]? = s.windows[e.window]? → Service first start opening k log f d t

namespace Service

variable {first e : Engine} {start d : Domain StockDriver} {opening s : Scene} {k : Nat} {log : Log}
  {handle : ZoneHandle} {z : Zone StockDriver}

theorem course (h : Service first start opening k log e d s) : Course first opening k log e s := by
  induction h with
  | opens => exact .opens
  | writes _ member ih => exact ih.writes member
  | rewinds _ ih => exact ih.rewinds
  | operates _ _ _ ih => exact ih.others (.refl _) rfl rfl
  | others _ kept base window ih => exact ih.others kept base window

theorem held (h : Service first start opening k log e d s) (opens : Replay.Opens first opening)
    (now : Nat) : (Surroundings.plain s.windows now).windows[first.window]? =
      some (.ofWords (log.words first.dataset.columns.length)) :=
  h.course.window opens

theorem serves (h : Service first start opening k log e d s) (opens : Replay.Opens first opening)
    (attached : start.Serves first handle z) : ∃ w, d.Serves first handle w := by
  -- Only operations come to the domain at all.
  induction h with
  | opens => exact ⟨z, attached⟩
  | writes _ _ ih | rewinds _ ih | others _ _ _ _ ih => exact ih
  | operates now operation service ih =>
    obtain ⟨w, serves⟩ := ih
    exact (serves.operate rfl (service.held opens now) (Log.words_length _ _) opens.fits operation _).1

end Service

/-- A domain in which all is well with the zone of a replay: no operation that means it fails, and a
pass over it finds for each column the word that was last written, and samples this word if the zone
is enabled. -/
structure Domain.Follows (first : Engine) (handle : ZoneHandle) (log : Log) (s : Scene)
    (d : Domain StockDriver) : Prop where
  succeeds : ∀ (now : Nat) (operation : Operation), operation.Means handle →
    (operation.run (.plain s.windows now) d s.shared).outcome = .ok ()
  finds : ∀ (now i : Nat) (column : Column), first.dataset.columns[i]? = some column →
    Block.decoded (.plain s.windows now) first.settings.block (some first.window)
      (metricSpec column i) 0 = .ok ((log.last? i).getD 0)
  samples : ∀ (now : Nat) (clear : Bool), ∃ z w, d.zones = [z] ∧ z.handle = some handle ∧
    (d.update (.plain s.windows now) clear s.shared).domain.zones = [w] ∧
    (z.enabled = true → ∀ (i : Nat) (column : Column), first.dataset.columns[i]? = some column →
      ∃ x y, Element.At first.blockSpec (metricSpec column i) 0 i 0 z x ∧
      Element.At first.blockSpec (metricSpec column i) 0 i 0 w y ∧
      x.Samples column.type ((log.last? i).getD 0) clear y)

theorem Service.follows {first e : Engine} {start d : Domain StockDriver} {opening s : Scene}
    {k : Nat} {log : Log} {handle : ZoneHandle} {z : Zone StockDriver}
    (h : Service first start opening k log e d s) (opens : Replay.Opens first opening)
    (attached : start.Serves first handle z) : d.Follows first handle log s := by
  obtain ⟨w, serves⟩ := h.serves opens attached
  have sized := log.words_length first.dataset.columns.length
  have fits : (log.words first.dataset.columns.length).length * Replay.registerSize < 2 ^ 64 := by
    rw [sized]
    exact opens.fits
  have written {i : Nat} {column : Column} (there : first.dataset.columns[i]? = some column) :=
    log.getElem?_words (List.getElem?_eq_some_iff.mp there).1
  refine ⟨fun now operation means => ?_, fun now i column there => ?_, fun now clear => ?_⟩
  · exact (serves.operate rfl (h.held opens now) sized opens.fits operation _).2 means
  · exact Engine.decoded_word (h.held opens now) fits (written there) column _
  · obtain ⟨v, t, done, -⟩ := serves.exposes.pass_ok (h.held opens now) sized opens.fits clear
      s.shared
    have whole : passOver (Zone.pass (.plain s.windows now) clear) d.zones s.shared =
        (none, [v], t) := by
      simp only [serves.zones, passOver, done]
    refine ⟨w, v, serves.zones, serves.handle, by rw [Domain.update_ok serves.tree whole], ?_⟩
    intro on i column there
    exact serves.exposes.samples on done (h.held opens now) fits there (written there)

def exporting : Scene := ⟨[.ofSize .memory 8], (SelfMetrics.register 0 (.ofRegistries 1)).2⟩

theorem exporting_alone : SelfMetrics.Alone 0 exporting.shared := by
  have present : 0 < (Shared.ofRegistries 1).registries.length := by decide
  obtain ⟨m, t, done, alone⟩ := SelfMetrics.register_alone present rfl
  rw [exporting, done]
  exact alone

def bareDomain : Domain StockDriver := (Domain.create 1 0 ⟨"d", 0, false⟩ exporting.shared).1

theorem halfEmptyData_servable :
    halfEmptyData.Distinct ∧ halfEmptyData.Unmistaken "d" "replay" "dataset" := by
  refine ⟨⟨by decide, by decide⟩, ?_, ?_, ?_⟩
  · intro c here e there _
    rw [List.mem_singleton.mp here, List.mem_singleton.mp there]
  · intro c here
    rw [List.mem_singleton.mp here, identityOf_eq]
    decide +kernel
  · intro _
    simp only [identityOf_eq]
    decide +kernel

/-- **Which datasets can be served.** Every heading makes a valid name. The zone of a dataset is
attached to a fresh domain, in whose registry the exporter's own metrics are alone, just if the
names of its columns differ from each other and from those of these metrics, and the registry does
not mistake them; otherwise it is refused. From then on, whatever rows are written and however often
the dataset is rewound, no pass fails, and each finds the words that were last written. -/
theorem datasets_served (env : Surroundings) (bytes : List UInt8) (d : Dataset)
    (settings : Replay.Settings) (metrics : Option SelfMetrics) (domain : Domain StockDriver)
    (opening : Scene) (window : Nat)
    (accepted : d.Accepted bytes) (fresh : domain.Fresh)
    (alone : SelfMetrics.Alone domain.registry opening.shared)
    (own : opening.windows[window]? = some (.ofSize .memory (windowSize d))) :
    let first := create d settings window metrics
    let done := domain.allocZone env first.zoneSpec opening.shared
    (∀ heading, Series.isMetricName (metricName heading) = true) ∧
    ((∃ handle, done.outcome = .ok handle) ↔
      d.Distinct ∧ d.Unmistaken domain.name settings.zone settings.block) ∧
    ((∃ handle, done.outcome = .ok handle) ∨
      ∃ refusal, done.outcome = .error (.refused refusal)) ∧
    ∀ handle, done.outcome = .ok handle →
      (∃ z, done.domain.zones = [z] ∧ z.enabled = true) ∧
      ∀ k log e after s,
        Service first done.domain ⟨opening.windows, done.shared⟩ k log e after s →
        after.Follows first handle log s := by
  intro first done
  obtain ⟨taken, ends⟩ := Engine.allocZone_isOk_iff (e := first) accepted.named fresh.tree alone
  refine ⟨metricName_named, taken, ends, fun handle attached => ?_⟩
  obtain ⟨z, serves, on⟩ := fresh.serves alone.present attached
  refine ⟨⟨z, serves.zones, on⟩, fun k log e after s service => ?_⟩
  exact service.follows (Replay.create_opens accepted settings metrics own) serves

theorem datasets_served_half_empty :
    let first := create halfEmptyData loopingSettings 0 none
    let done := bareDomain.allocZone (.plain exporting.windows 0) first.zoneSpec exporting.shared
    ∃ handle log e s z w x y, done.outcome = .ok handle ∧
      Service first done.domain ⟨exporting.windows, done.shared⟩ 1 log e done.domain s ∧
      (done.domain.update (.plain s.windows 0) false s.shared).outcome = .ok () ∧
      done.domain.zones = [z] ∧
      (done.domain.update (.plain s.windows 0) false s.shared).domain.zones = [w] ∧
      Element.At first.blockSpec (metricSpec ⟨"c_total", .counter⟩ 0) 0 0 0 z x ∧
      Element.At first.blockSpec (metricSpec ⟨"c_total", .counter⟩ 0) 0 0 0 w y ∧
      y.last = 5 ∧ y.value = x.value + (5 - x.last) := by
  intro first done
  obtain ⟨-, taken, -, attached⟩ := datasets_served (.plain exporting.windows 0) halfEmpty
    halfEmptyData loopingSettings none bareDomain exporting 0 halfEmpty_accepted
    (Domain.create_fresh ..) exporting_alone rfl
  obtain ⟨handle, ok⟩ := taken.mpr halfEmptyData_servable
  obtain ⟨⟨z, zones, on⟩, follows⟩ := attached handle ok
  have member : (⟨0, [some (.ofNat 5)]⟩ : DataRow) ∈ halfEmptyData.rows := List.mem_cons_self
  have service : Service first done.domain ⟨exporting.windows, done.shared⟩ 1 _ _ done.domain _ :=
    .rewinds (.writes .opens member)
  have all := follows _ _ _ _ _ service
  obtain ⟨v, w, only, -, passed, sampled⟩ := all.samples 0 false
  cases List.singleton_inj.mp (zones.symm.trans only)
  obtain ⟨x, y, before, after, samples⟩ := sampled on 0 ⟨"c_total", .counter⟩ rfl
  obtain ⟨last, value⟩ := samples.counter rfl
  have five : (Log.last? [rowWords first.dataset.columns first.base [some (.ofNat 5)]] 0).getD 0 =
      5 := by decide +kernel
  refine ⟨handle, _, _, _, z, w, x, y, ok, service, all.succeeds 0 (.update false) trivial, zones,
    passed, before, after, last.trans five, value.trans ?_⟩
  exact congrArg (fun word => x.value + (word - x.last)) five

def colliding : List UInt8 := "timestamp_ms,hdyrssmy27imi,fzm6gffhuumxh\n0,1,2\n".toUTF8.toList

def collidingData : Dataset :=
  ⟨[⟨"hdyrssmy27imi", .gauge⟩, ⟨"fzm6gffhuumxh", .gauge⟩],
    [⟨0, [some (.ofNat 1), some (.ofNat 2)]⟩]⟩

/-- Two columns of different names that the registry has the same word for are refused. -/
theorem colliding_names_refused :
    let first := create collidingData loopingSettings 0 none
    let done := bareDomain.allocZone (.plain exporting.windows 0) first.zoneSpec exporting.shared
    collidingData.Accepted colliding ∧ bareDomain.Fresh ∧
      SelfMetrics.Alone bareDomain.registry exporting.shared ∧ collidingData.Distinct ∧
      ∃ refusal, done.outcome = .error (.refused refusal) := by
  intro first done
  have accepted : collidingData.Accepted colliding := ⟨toOption_some (by decide +kernel), by decide⟩
  have sound : bareDomain.treePoisoned = false := rfl
  have alone : SelfMetrics.Alone bareDomain.registry exporting.shared := exporting_alone
  obtain ⟨taken, ends⟩ := Engine.allocZone_isOk_iff
    (e := create collidingData loopingSettings 0 none) accepted.named sound alone
  refine ⟨accepted, Domain.create_fresh .., alone, ⟨by decide, by decide⟩,
    ends.resolve_left fun ok => ?_⟩
  have unmistaken : collidingData.Unmistaken "d" "replay" "dataset" := (taken.mp ok).2
  have same : identityOf "d" "replay" "dataset" "hdyrssmy27imi" =
      identityOf "d" "replay" "dataset" "fzm6gffhuumxh" := by
    simp only [identityOf_eq]
    decide +kernel
  have named := unmistaken.columns _ List.mem_cons_self _
    (List.mem_cons_of_mem _ List.mem_cons_self) same
  exact absurd named (by decide)

end Telemetry
