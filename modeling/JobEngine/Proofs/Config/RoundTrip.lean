import JobEngine.Config.Load
import JobEngine.Proofs.Job.Codec
import JobEngine.Proofs.Job.Nesting
import JobEngine.Proofs.Json.Abridgement

namespace JobEngine

namespace Json

variable {α : Type} {write : α → Json} {o : Option α} {n : ℕ}

theorem reread_orNull (h : ∀ a, (write a).reread = write a) :
    (Members.orNull write o).reread = Members.orNull write o := by
  cases o with
  | none => rfl
  | some a => exact h a

theorem depth_orNull_le : (Members.orNull write o).depth ≤ n ↔ ∀ a ∈ o, (write a).depth ≤ n := by
  cases o <;> simp [Members.orNull, depth]

theorem rereadItems_map {xs : List α} (h : ∀ a, (write a).reread = write a) :
    rereadItems (xs.map write) = xs.map write := by
  rw [rereadItems_eq_map, List.map_map]
  exact List.map_congr_left fun a _ ↦ h a

end Json

namespace Shape

theorem keeps_bool (b : Bool) : Keeps .whole Json.asBool? (.bool b) b := .whole rfl

theorem keeps_string (s : String) : Keeps .whole Json.asString? (.str s) s := .whole rfl

theorem keeps_uint64 (n : UInt64) : Keeps .whole Json.asUInt64? (.ofUInt64 n) n :=
  .whole (Json.reads_uint64 n).written

theorem keeps_uint32 (n : UInt32) : Keeps .whole Json.asUInt32? (.ofUInt32 n) n :=
  .whole (Json.reads_uint32 n).written

end Shape

open Shape

namespace JobsConfig

def fields : List Entry :=
  [("statusDataPath", .whole, some (.str "jobs-status.json")),
    ("maxNumConcurrentJobs", .whole, some (.ofUInt64 0)),
    ("maxNumRestarts", .whole, some (.ofUInt32 3)),
    ("checkpointIntervalSecs", .whole, some (.ofUInt64 60)),
    ("jobRetentionHours", .whole, some (.ofUInt64 168))]

theorem recovers (c : JobsConfig) (rest : Members) :
    Recovers fields (c.toMembers ++ rest) ofMembers? c := by
  refine .withDefault rfl (keeps_string c.statusDataPath) rfl ?_
  refine .withDefault rfl (keeps_uint64 c.maxConcurrent) rfl ?_
  refine .withDefault rfl (keeps_uint32 c.maxRestarts) rfl ?_
  refine .withDefault rfl (keeps_uint64 c.checkpointSecs) rfl ?_
  refine .withDefault rfl (keeps_uint64 c.retentionHours) rfl ?_
  exact .done

end JobsConfig

namespace LogConfig

def fields : List Entry :=
  [("dir", .whole, some (.str "logs")), ("filter", .whole, some .null)]

theorem keeps (c : LogConfig) : Keeps (.object fields) ofJson? c.toJson c := by
  refine .object (by decide) (by simp) ?_
  refine .withDefault rfl (keeps_string c.dir) rfl ?_
  refine .optional (o := c.filter) rfl (fun _ ↦ rfl) (by simp) ?_
  exact .done

end LogConfig

theorem WebhookAuth.ofJson?_toJson (a : WebhookAuth) : ofJson? a.toJson = some a := by
  cases a
  rfl

def LogChannel.fields : List Entry := [("enabled", .whole, some (.bool true))]

def Webhook.fields : List Entry :=
  [("enabled", .whole, some (.bool false)), ("url", .whole, none), ("auth", .whole, some .null),
    ("timeoutSecs", .whole, some (.ofUInt64 30))]

namespace Channel

def kinds : List (String × List Entry) :=
  [("log", LogChannel.fields), ("webhook", Webhook.fields)]

theorem keeps (c : Channel) : Keeps (.tagged kinds) ofJson? c.toJson c := by
  cases c with
  | log c =>
    have hk : ("log", LogChannel.fields) ∈ kinds := by simp [kinds]
    refine .tagged hk (by decide) (by decide) (by simp [members])
      (fun v v' hv ↦ by rw [ofJson?, hv]; rfl) ?_
    refine .withDefault rfl (keeps_bool c.enabled) rfl ?_
    exact .done
  | webhook c =>
    have hk : ("webhook", Webhook.fields) ∈ kinds := by simp [kinds]
    refine .tagged hk (by decide) (by decide) (by simp [members])
      (fun v v' hv ↦ by rw [ofJson?, hv]; rfl) ?_
    refine .withDefault rfl (keeps_bool c.enabled) rfl ?_
    refine .required rfl (keeps_string c.url) ?_
    refine .optional (o := c.auth) rfl WebhookAuth.ofJson?_toJson (by simp [WebhookAuth.toJson]) ?_
    refine .withDefault rfl (keeps_uint64 c.timeoutSecs) rfl ?_
    exact .done

end Channel

namespace ServiceConfig

def fields : List Entry :=
  [("enabled", .whole, some (.bool false)),
    ("channels", .items (.tagged Channel.kinds), some (.arr []))]

theorem keeps (c : ServiceConfig) : Keeps (.object fields) ofJson? c.toJson c := by
  refine .object (by decide) (by simp) ?_
  refine .withDefault rfl (keeps_bool c.enabled) rfl ?_
  refine .withDefault rfl (.items fun x _ ↦ x.keeps) rfl ?_
  exact .done

end ServiceConfig

namespace AppConfig

def fields : List Entry :=
  JobsConfig.fields ++
    [("notification", .object ServiceConfig.fields, some ({} : ServiceConfig).toJson),
      ("logging", .object LogConfig.fields, some ({} : LogConfig).toJson)]

theorem recovers (c : AppConfig) : Recovers fields
    (c.jobs.toMembers ++ [("notification", c.notification.toJson), ("logging", c.logging.toJson)])
    ofMembers? c := by
  refine .append (c.jobs.recovers _) ?_
  refine .withDefault rfl c.notification.keeps rfl ?_
  refine .withDefault rfl c.logging.keeps rfl ?_
  exact .done

theorem keeps (c : AppConfig) : Keeps (.object fields) ofJson? c.toJson c := by
  intro v hv
  obtain ⟨m', rfl, hm', hx⟩ := hv.object_left (by decide) (by simp [JobsConfig.toMembers])
  rw [ofJson?, if_pos (Json.unrepeated_of_nodup hm' _)]
  exact c.recovers m' hx

end AppConfig

section Text

open Json

theorem WebhookAuth.reread_toJson (a : WebhookAuth) : a.toJson.reread = a.toJson := by
  cases a
  rfl

theorem Channel.reread_toJson (c : Channel) : c.toJson.reread = c.toJson := by
  cases c with
  | log c => rfl
  | webhook c =>
    simp only [toJson, members, reread, rereadMembers, reread_ofUInt64,
      reread_orNull WebhookAuth.reread_toJson]

theorem ServiceConfig.reread_toJson (c : ServiceConfig) : c.toJson.reread = c.toJson := by
  simp only [toJson, reread, rereadMembers, rereadItems_map Channel.reread_toJson]

theorem LogConfig.reread_toJson (c : LogConfig) : c.toJson.reread = c.toJson := by
  have h : (Members.orNull str c.filter).reread = Members.orNull str c.filter :=
    reread_orNull fun _ ↦ rfl
  simp only [toJson, reread, rereadMembers, h]

theorem AppConfig.reread_toJson (c : AppConfig) : c.toJson.reread = c.toJson := by
  simp only [toJson, JobsConfig.toMembers, reread, rereadMembers, rereadMembers_append,
    reread_ofUInt64, reread_ofUInt32, ServiceConfig.reread_toJson, LogConfig.reread_toJson]

theorem WebhookAuth.depth_toJson (a : WebhookAuth) : a.toJson.depth ≤ 1 := by
  cases a
  exact le_rfl

theorem Channel.depth_toJson (c : Channel) : c.toJson.depth ≤ 2 := by
  cases c with
  | log c => simp [toJson, members, depth_obj_le, depthMembers]
  | webhook c =>
    simp [toJson, members, depth_obj_le, depthMembers, depth_orNull_le, WebhookAuth.depth_toJson]

theorem ServiceConfig.depth_toJson (c : ServiceConfig) : c.toJson.depth ≤ 4 := by
  simp [toJson, depth_obj_le, depth_arr_le, depthMembers, Channel.depth_toJson]

theorem LogConfig.depth_toJson (c : LogConfig) : c.toJson.depth ≤ 1 := by
  have h : (Members.orNull str c.filter).depth ≤ 0 := depth_orNull_le.2 fun _ _ ↦ le_rfl
  simpa [toJson, depth_obj_le, depthMembers] using h

theorem AppConfig.depth_toJson (c : AppConfig) : c.toJson.depth ≤ 5 := by
  have h : c.logging.toJson.depth ≤ 4 := c.logging.depth_toJson.trans (by decide)
  simp [toJson, JobsConfig.toMembers, depth_obj_le, depthMembers, ServiceConfig.depth_toJson, h]

end Text

namespace AppConfig

variable {c : AppConfig} {text : String} {v : Json}

/-- A text is read as a configuration, and so is every file that holds it. -/
def IsReadFrom (c : AppConfig) (text : String) : Prop :=
  parse text = .ok c ∧ ∀ (fs : FileSystem) (path : String),
    fs.read (.ofString path) = some text.toUTF8 → fromFile fs path = .ok c

theorem isReadFrom_of_parse (h : parse text = .ok c) : c.IsReadFrom text := by
  refine ⟨h, fun fs path hf ↦ ?_⟩
  have hu : String.fromUTF8? text.toUTF8 = some text := dif_pos text.isValidUTF8
  rw [fromFile, hf, Option.bind_some, hu]
  exact h

theorem isReadFrom_of_abridges (hv : (Shape.object fields).Abridges c.toJson v)
    (ht : Json.Spells text v) : c.IsReadFrom text := by
  have hd : v.depth ≤ Json.maxDepth :=
    (hv.depth_le.trans c.depth_toJson).trans (by decide)
  apply isReadFrom_of_parse
  rw [parse, ht.read, if_pos hd, Option.bind_some, c.keeps v hv]

/-- Whichever way a configuration is written, it is read again, and leaving out fields that hold
their defaults makes no difference, whatever text spells the rest. -/
theorem reads_back (c : AppConfig) :
    c.IsReadFrom c.toJson.compact ∧ c.IsReadFrom c.toJson.pretty ∧
      ∀ v, (Shape.object fields).Abridges c.toJson v → ∀ text, Json.Spells text v →
        c.IsReadFrom text := by
  have hc := Json.spells_compact c.toJson
  have hp := Json.spells_pretty c.toJson
  rw [c.reread_toJson] at hc hp
  exact ⟨isReadFrom_of_abridges .same hc, isReadFrom_of_abridges .same hp,
    fun _ hv _ ht ↦ isReadFrom_of_abridges hv ht⟩

/-- Without any field the concurrency is left open, which it is not if there is no file. -/
example : parse (Json.obj []).compact = .ok {} := rfl

def authorizedHook : Webhook := { url := "http://host/jobs", auth := some (.bearer "key") }

def watched : AppConfig where
  jobs := { maxRestarts := 7, retentionHours := 0 }
  notification := { enabled := true, channels := [.log {}, .webhook authorizedHook] }

def hookBriefly : Json :=
  .obj [("type", .str "webhook"), ("enabled", .bool false), ("url", .str "http://host/jobs"),
    ("auth", (WebhookAuth.bearer "key").toJson)]

def watchedBriefly : Json :=
  .obj [("maxNumRestarts", .ofUInt32 7), ("jobRetentionHours", .ofUInt64 0),
    ("notification", .obj [("enabled", .bool true),
      ("channels", .arr [.obj [("type", .str "log")], hookBriefly])])]

theorem abridges_watchedBriefly : Abridges (.object fields) watched.toJson watchedBriefly := by
  have nth {l : List Entry} {x : Entry} (i : ℕ) (h : l[i]? = some x) : x ∈ l :=
    List.mem_of_getElem? h
  have hlog : Abridges (.tagged Channel.kinds) (Channel.log {}).toJson
      (.obj [("type", .str "log")]) :=
    .tagged List.mem_cons_self (.leaveOut (nth 0 rfl) .nil)
  have hhook : Abridges (.tagged Channel.kinds) (Channel.webhook authorizedHook).toJson
      hookBriefly :=
    .tagged (.tail _ List.mem_cons_self)
      (.keep (nth 0 rfl) .same (.keep (nth 1 rfl) .same (.keep (nth 2 rfl) .same
        (.leaveOut (nth 3 rfl) .nil))))
  have hservice : Abridges (.object ServiceConfig.fields) watched.notification.toJson
      (.obj [("enabled", .bool true),
        ("channels", .arr [.obj [("type", .str "log")], hookBriefly])]) :=
    .object (.keep (nth 0 rfl) .same
      (.keep (nth 1 rfl) (.items (.cons hlog (.cons hhook .nil))) .nil))
  exact .object (.leaveOut (nth 0 rfl) (.leaveOut (nth 1 rfl) (.keep (nth 2 rfl) .same
    (.leaveOut (nth 3 rfl) (.keep (nth 4 rfl) .same (.keep (nth 5 rfl) hservice
      (.leaveOut (nth 6 rfl) .nil)))))))

theorem reads_back_sample :
    Abridges (.object fields) watched.toJson watchedBriefly ∧
      Json.Spells watchedBriefly.pretty watchedBriefly ∧
      fromFile ⟨[(["config.json"], .file watchedBriefly.pretty.toUTF8)]⟩ "config.json" =
        .ok watched := by
  obtain ⟨-, -, h⟩ := watched.reads_back
  have hs : Json.Spells watchedBriefly.pretty watchedBriefly := Json.spells_pretty watchedBriefly
  exact ⟨abridges_watchedBriefly, hs, (h _ abridges_watchedBriefly _ hs).2 _ _ rfl⟩

end AppConfig

end JobEngine
