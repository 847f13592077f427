import QueueWorkerKit.Config.EnvExact

/-!
# The dashboard of the application

The part of `buildApp` in `api/app.ts` that mounts the dashboard: it relies on the configuration for
the credentials.

## Main definitions

* `mountBullBoard`: the credentials a dashboard is mounted with, where it is enabled

## Main results

* `loadEnv_exact`: **the configuration is read exactly, or refused**
-/

namespace QueueWorkerKit

open Ecma

/-- The credentials that the dashboard is registered with, none where it is not enabled. -/
def mountBullBoard (env : Data) : Except JsString (Option (JsString × JsString)) :=
  match env.get (js "ENABLE_BULL_BOARD") with
  | .bool true =>
    match env.get (js "BULL_BOARD_USERNAME"), env.get (js "BULL_BOARD_PASSWORD") with
    | .str username, .str password => .ok (some (username, password))
    | _, _ => .error (js "Bull Board is enabled but its credentials are missing")
  | _ => .ok none

variable {platform : Platform}

theorem exists_mountBullBoard {env : Data} (h : DashboardRule platform env.get) :
    ∃ credentials, mountBullBoard env = .ok credentials := by
  unfold mountBullBoard
  split
  · next henabled =>
    obtain ⟨⟨username, husername, -⟩, password, hpassword, -⟩ := h henabled
    rw [husername, hpassword]
    exact ⟨_, rfl⟩
  · exact ⟨none, rfl⟩

/-- **The configuration is read exactly, or refused.** What is loaded is what each variable is read
as: an integer is the one its text denotes, within its bounds; a blank boolean or secret is absent,
a blank integer is refused; a default stands for an absent variable only. An enabled dashboard has
its credentials, so `buildApp` can mount it. And variables that can all be read are loaded, where an
enabled dashboard has what it needs. -/
theorem loadEnv_exact (platform : Platform) (source : Source) :
    (∀ env, loadEnv platform source = .ok env →
      (∀ v ∈ envVariables platform, v.Reads platform (source.variable v.name) (env.get v.name)) ∧
      DashboardRule platform env.get ∧ ∃ credentials, mountBullBoard env = .ok credentials) ∧
    (∀ v ∈ envVariables platform, ∀ min max text, v.kind = .integer min max →
      source.variable v.name = some text → Blank text →
      ∃ error, loadEnv platform source = .error error) ∧
    ∀ values : JsString → Data,
      (∀ v ∈ envVariables platform,
        v.Reads platform (source.variable v.name) (values v.name)) →
      DashboardRule platform values →
      ∃ env, loadEnv platform source = .ok env ∧
        ∀ v ∈ envVariables platform, env.get v.name = values v.name := by
  refine ⟨fun env henv => ?_, fun v hv min max text hkind htext hblank => ?_,
    fun values => exists_loadEnv⟩
  · obtain ⟨hreads, hrule⟩ := reads_of_loadEnv henv
    exact ⟨hreads, hrule, exists_mountBullBoard hrule⟩
  · cases henv : loadEnv platform source with
    | error error => exact ⟨error, rfl⟩
    | ok env =>
      -- the variable would be read as an integer
      rcases (reads_of_loadEnv henv).1 v hv with ⟨habsent, -⟩ | ⟨-, text', htext', hreads⟩
      · rcases habsent with hnone | ⟨hblank', -⟩
        · rw [htext] at hnone
          cases hnone
        · rw [hkind] at hblank'
          exact absurd hblank' id
      · obtain rfl : text = text' := Option.some.inj (htext.symm.trans htext')
        rw [hkind] at hreads
        obtain ⟨n, hn, -⟩ := hreads
        exact absurd hn (not_denotes_of_blank hblank)

end QueueWorkerKit
