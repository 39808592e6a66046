import SeisFeed.Proofs.Session.Retrieval
/-!
# How windows slide

A retrieval with a delay requests one window after the other, each as long as the last and right
behind it. Time ends at a last second, and there the windows are cut off: where they start and stop
is told by boundaries at equal distances, of which none is later than that second. So all windows
are of the full length up to the one that reaches the end of time, which may be shorter, and behind
it there are only empty ones.
-/

namespace SeisFeed

namespace Time

theorem toInt_saturate (i : Int) :
    (saturate i).toInt = max Int32.minValue.toInt (min Int32.maxValue.toInt i) := by
  have hlow := Int32.toInt_minValue
  have hhigh := Int32.toInt_maxValue
  exact Int32.toInt_ofInt_of_le (by omega) (by omega)

namespace Window

variable {w : Window}

def length (w : Window) : Int :=
  w.stop.toInt - w.start.toInt

/-- A window that does not stop before it starts, and whose length is a number of seconds. -/
structure Fits (w : Window) : Prop where
  ordered : w.start.toInt ≤ w.stop.toInt
  short : w.length ≤ Int32.maxValue.toInt

/-- Where the window starts that comes so many windows after a window: no later than time ends. -/
def boundary (w : Window) (k : Nat) : Int :=
  min Int32.maxValue.toInt (w.start.toInt + k * w.length)

/-- The window that comes so many windows after a window. -/
def after? (w : Window) : Nat → Option Window
  | 0 => some w
  | k + 1 => (w.after? k).bind next?

theorem Fits.span?_eq (h : w.Fits) : ∃ span, w.span? = some span ∧ span.toInt = w.length := by
  have hlow := Int32.toInt_minValue
  have hhigh := Int32.toInt_maxValue
  have hordered := h.ordered
  have hshort := h.short
  have hnonneg : 0 ≤ w.length := by
    rw [length]
    omega
  exact ⟨Int32.ofInt w.length, if_pos ⟨by omega, hshort⟩,
    Int32.toInt_ofInt_of_le (by omega) (by omega)⟩

theorem Fits.next?_eq (h : w.Fits) :
    ∃ next, w.next? = some next ∧ next.start = w.stop ∧
      next.stop.toInt = min Int32.maxValue.toInt (w.stop.toInt + w.length) := by
  obtain ⟨span, hspan, hlength⟩ := h.span?_eq
  refine ⟨⟨w.stop, saturate (w.stop.toInt + span.toInt)⟩, by rw [next?, hspan]; rfl, rfl, ?_⟩
  have hstop := w.stop.le_toInt
  have hordered := h.ordered
  have hlow := Int32.toInt_minValue
  have hhigh := Int32.toInt_maxValue
  rw [toInt_saturate, hlength, length]
  omega

theorem boundary_le (w : Window) (k : Nat) : w.boundary k ≤ Int32.maxValue.toInt :=
  Int.min_le_left _ _

theorem boundary_zero (w : Window) : w.boundary 0 = w.start.toInt := by
  have hstart := w.start.toInt_lt
  have hhigh := Int32.toInt_maxValue
  rw [boundary]
  omega

theorem boundary_one (w : Window) : w.boundary 1 = w.stop.toInt := by
  have hstop := w.stop.toInt_lt
  have hhigh := Int32.toInt_maxValue
  rw [boundary, length]
  omega

theorem boundary_succ (h : 0 ≤ w.length) (k : Nat) :
    w.boundary (k + 1) = min Int32.maxValue.toInt (w.boundary k + w.length) := by
  have hone : ((k + 1 : Nat) : Int) * w.length = k * w.length + w.length := by
    rw [Int.natCast_add, Int.add_mul, Int.natCast_one, Int.one_mul]
  rw [boundary, boundary, hone]
  omega

theorem boundary_lt_succ_iff (h : 0 < w.length) (k : Nat) :
    w.boundary k < w.boundary (k + 1) ↔ w.boundary k ≠ Int32.maxValue.toInt := by
  have hle := w.boundary_le k
  rw [boundary_succ (Int.le_of_lt h)]
  omega

theorem Fits.after?_eq (h : w.Fits) (k : Nat) :
    ∃ v, w.after? k = some v ∧ v.start.toInt = w.boundary k ∧
      v.stop.toInt = w.boundary (k + 1) := by
  induction k with
  | zero => exact ⟨w, rfl, w.boundary_zero.symm, w.boundary_one.symm⟩
  | succ k ih =>
    obtain ⟨v, hv, hstart, hstop⟩ := ih
    have hlength : 0 ≤ w.length := Int.sub_nonneg_of_le h.ordered
    have hle := w.boundary_le k
    have hone := boundary_succ hlength k
    have htwo := boundary_succ hlength (k + 1)
    -- `v` is shorter than `w` only if time ends where it stops
    have hlater : v.length = w.boundary (k + 1) - w.boundary k := by rw [length, hstart, hstop]
    have hfits : v.Fits := by
      have hshort := h.short
      exact ⟨by omega, by omega⟩
    obtain ⟨next, hnext, hfirst, hlast⟩ := hfits.next?_eq
    refine ⟨next, ?_, by rw [hfirst, hstop], by omega⟩
    rw [after?, hv]
    exact hnext

end Window

end Time

namespace Session

open Delivery (Pipeline)
open Time (Window)

variable {σ : Type} {pipeline : Pipeline σ} {isStopped : σ → Bool} {request : ArchiveRequest}
  {keys : List UInt32}

theorem ArchiveRequest.window_of_validate (h : request.validate = .ok ()) :
    request.window.start < request.window.stop := by
  rw [validate] at h
  obtain ⟨_, -, h⟩ := ok_of_bind h
  obtain ⟨_, -, h⟩ := ok_of_bind h
  rw [refuseIf] at h
  split at h
  · cases h
  · next hnot => exact Int32.not_le.1 hnot

namespace Archive

/-- So many turns of a retrieval from window to window, each of which goes on. -/
inductive Slides (pipeline : Pipeline σ) (isStopped : σ → Bool) (request : ArchiveRequest)
    (keys : List UInt32) (first : Window × Feed Archive σ) : Nat → Window × Feed Archive σ → Prop
  | none : Slides pipeline isStopped request keys first 0 first
  | more {k : Nat} {s s' : Window × Feed Archive σ}
      (hbefore : Slides pipeline isStopped request keys first k s)
      (hturn : windowTurn pipeline isStopped request keys s = .ok (.again s')) :
      Slides pipeline isStopped request keys first (k + 1) s'

theorem next?_of_windowTurn {w w' : Window} {f f' : Feed Archive σ}
    (h : windowTurn pipeline isStopped request keys (w, f) = .ok (.again (w', f'))) :
    w.next? = some w' := by
  rw [windowTurn] at h
  split at h
  · cases h
  · cases h
  split at h
  · cases h
  · cases h
  · cases h
  split at h
  · cases h
  split at h
  · cases h
  · next hnext =>
    cases h
    exact hnext

theorem windowTurn_again {w next : Window} {f f' : Feed Archive σ}
    (hdelay : request.delay.isNone = false)
    (hdue : await? isStopped request w f.world = .ok true)
    (hretrieved : retrieveChannels pipeline isStopped w keys f = .ok (.ok true, f'))
    (hnext : w.next? = some next) :
    windowTurn pipeline isStopped request keys (w, f) = .ok (.again (next, f')) := by
  rw [windowTurn, hdue]
  simp only [hretrieved, hdelay, hnext]
  rfl

theorem Slides.after?_eq {w w' : Window} {f f' : Feed Archive σ} {k : Nat}
    (h : Slides pipeline isStopped request keys (w, f) k (w', f')) : w.after? k = some w' := by
  generalize hs : (w', f') = s at h
  induction h generalizing w' f' with
  | none =>
    cases hs
    rfl
  | @more k s s' hbefore hturn ih =>
    subst hs
    rw [Window.after?, ih rfl]
    exact next?_of_windowTurn hturn

/-- **How windows slide.** From a window that was checked and whose length is a number of seconds,
every later window can be computed. It starts where the one before stops, runs from one boundary to
the next, and is not empty unless it starts at the last second there is. These are the windows that
a retrieval with a delay goes through, and each that it has retrieved is followed by the next. -/
theorem windows_slide_to_limit (hvalid : request.validate = .ok ())
    (hshort : request.window.length ≤ Int32.maxValue.toInt) (pipeline : Pipeline σ)
    (isStopped : σ → Bool) (keys : List UInt32) (f : Feed Archive σ) :
    (∀ k, ∃ w, request.window.after? k = some w ∧
      w.start.toInt = request.window.boundary k ∧
      w.stop.toInt = request.window.boundary (k + 1) ∧
      (w.start < w.stop ↔ w.start ≠ Int32.maxValue) ∧
      ∃ next, request.window.after? (k + 1) = some next ∧ next.start = w.stop) ∧
    ∀ k w f', Slides pipeline isStopped request keys (request.window, f) k (w, f') →
      request.window.after? k = some w ∧
      ∀ f'', request.delay.isNone = false → await? isStopped request w f'.world = .ok true →
        retrieveChannels pipeline isStopped w keys f' = .ok (.ok true, f'') →
        ∃ next, request.window.after? (k + 1) = some next ∧
          windowTurn pipeline isStopped request keys (w, f') = .ok (.again (next, f'')) := by
  have hordered := Int32.lt_iff_toInt_lt.1 (ArchiveRequest.window_of_validate hvalid)
  have hfits : request.window.Fits := ⟨Int.le_of_lt hordered, hshort⟩
  have hpositive : 0 < request.window.length := Int.sub_pos_of_lt hordered
  refine ⟨fun k => ?_, fun k w f' hslides => ?_⟩
  · obtain ⟨w, hw, hstart, hstop⟩ := hfits.after?_eq k
    obtain ⟨next, hnext, hfirst, -⟩ := hfits.after?_eq (k + 1)
    have hnonempty := Window.boundary_lt_succ_iff hpositive k
    rw [← hstart, ← hstop, ← Int32.lt_iff_toInt_lt, Ne, Int32.toInt_inj] at hnonempty
    have hmeet : next.start = w.stop := Int32.toInt_inj.1 (hfirst.trans hstop.symm)
    exact ⟨w, hw, hstart, hstop, hnonempty, next, hnext, hmeet⟩
  · have hafter := hslides.after?_eq
    refine ⟨hafter, fun f'' hdelay hdue hretrieved => ?_⟩
    obtain ⟨next, hnext, -, -⟩ := hfits.after?_eq (k + 1)
    have hstep := hnext
    rw [Window.after?, hafter] at hstep
    exact ⟨next, hnext, windowTurn_again hdelay hdue hretrieved hstep⟩

end Archive

namespace Sample

/-- Minutes up to the last second, one after the other. -/
def lastMinutes : ArchiveRequest :=
  { ArchiveRequest.ofPatterns "*.HHZ" ⟨2147483527, 2147483587⟩ with delay := some .zero }

/-- A packet at the start of the first of these minutes. -/
def lateReply : Reply :=
  { shortReply with
    packets := [packetOf 0 2147483527 0 0]
    passive := by
      intro m hm
      obtain rfl := List.mem_singleton.1 hm
      exact ⟨by decide, by decide⟩ }

def lateFeed : Feed Archive (List Nat) :=
  let link := (Link.opened ⟨[], [], true⟩ .zero).carrying lateReply.messages
  .start { Archive.loggedIn 0 link with selected := station } []

/-- The first minute is requested and answered, the next one is a whole minute, and the one behind
it is empty. -/
theorem windows_slide_to_limit_last_minutes :
    lastMinutes.validate = .ok () ∧ lastMinutes.window.length ≤ Int32.maxValue.toInt ∧
      (∃ f, f.world = [16] ∧
        Archive.retrieveChannels closedThenCounting (fun _ => false) lastMinutes.window
          [0x00030100] lateFeed = .ok (.ok true, f) ∧
        Archive.Slides closedThenCounting (fun _ => false) lastMinutes [0x00030100]
          (lastMinutes.window, lateFeed) 1 (⟨2147483587, 2147483647⟩, f)) ∧
      lastMinutes.window.after? 1 = some ⟨2147483587, 2147483647⟩ ∧
      ∃ w, lastMinutes.window.after? 2 = some w ∧ w.start = 2147483647 ∧ ¬ w.start < w.stop := by
  have hvalid : lastMinutes.validate = .ok () := rfl
  have hshort : lastMinutes.window.length ≤ Int32.maxValue.toInt := by decide
  have hidles : lateFeed.source.Idles (Link.opened ⟨[], [], true⟩ .zero)
      (([0x00030100] : List UInt32).flatMap (fun _ => lateReply.messages) ++ []) :=
    ⟨rfl, rfl, Link.free_opened [] true .zero⟩
  obtain ⟨f, hretrieved, -, hserved⟩ := Archive.retrieveChannels_eq closedThenCounting
    (fun _ => rfl) lastMinutes.window (fun _ => lateReply) hidles
  have hworld : f.world = [16] := hserved.world.trans (by decide +kernel)
  obtain ⟨hwindows, hretrieval⟩ := Archive.windows_slide_to_limit hvalid hshort closedThenCounting
    (fun _ => false) [0x00030100] lateFeed
  obtain ⟨next, hnext, hturn⟩ := (hretrieval 0 _ _ .none).2 f rfl rfl hretrieved
  have hminute : lastMinutes.window.after? 1 = some ⟨2147483587, 2147483647⟩ := by decide
  obtain rfl := Option.some.inj (hminute.symm.trans hnext)
  obtain ⟨w, hw, hstart, -, hnonempty, -⟩ := hwindows 2
  have hlast : w.start = Int32.maxValue := Int32.toInt_inj.1 (hstart.trans (by decide))
  exact ⟨hvalid, hshort, ⟨f, hworld, hretrieved, .more .none hturn⟩, hminute, w, hw, hlast,
    fun hlt => hnonempty.1 hlt hlast⟩

/-- The last minute there is, and more than half of all time. -/
def lastMinute : ArchiveRequest :=
  .ofPatterns "*.HHZ" ⟨2147483587, 2147483647⟩

def firstHalf : ArchiveRequest :=
  .ofPatterns "*.HHZ" ⟨-2147483648, 0⟩

/-- Behind the last minute there is only an empty window, and behind a window whose length is no
number of seconds there is none. -/
theorem no_window_behind_limit :
    lastMinute.validate = .ok () ∧
      lastMinute.window.after? 1 = some ⟨2147483647, 2147483647⟩ ∧
      (¬ ∃ w, lastMinute.window.after? 1 = some w ∧ w.start < w.stop) ∧
      firstHalf.validate = .ok () ∧ ¬ ∃ w, firstHalf.window.after? 1 = some w := by
  have hempty : lastMinute.window.after? 1 = some ⟨2147483647, 2147483647⟩ := by decide
  refine ⟨rfl, hempty, ?_, rfl, ?_⟩
  · rintro ⟨w, hw, hlt⟩
    obtain rfl := Option.some.inj (hempty.symm.trans hw)
    exact absurd hlt (by decide)
  · have hnone : firstHalf.window.after? 1 = none := by decide
    rw [hnone]
    exact nofun

end Sample

end Session

end SeisFeed
