/-!
Vocabularies: small sets of values, each with its label. A value is found again
by its label (`ofLabel?_label`).
-/
namespace Intake

class Labelled (α : Type) where
  /-- What the vocabulary is called in messages. -/
  title : String
  /-- The values in the order in which messages list them. -/
  values : List α
  label : α → String
  lookup_label : ∀ a, (values.map fun b => (label b,b)).lookup (label a) = some a

namespace Labelled

variable {α : Type} [Labelled α]

/-- The values behind their labels. -/
def entries : List (String × α) := values.map fun a => (label a,a)

def ofLabel? (s : String) : Option α := entries.lookup s

@[simp] theorem ofLabel?_label (a : α) : ofLabel? (label a) = some a := lookup_label a

end Labelled

/-- The kind of content that an item was classified as. -/
inductive ContentType where
  | movie
  | tvShow
  | music
  | ebook
  | comic
  | audiobook
  | game
  | software
  | xxx
deriving DecidableEq, Repr

inductive VideoResolution where
  | v360p
  | v480p
  | v540p
  | v576p
  | v720p
  | v1080p
  | v1440p
  | v2160p
  | v4320p
deriving DecidableEq, Repr

inductive VideoSource where
  | cam
  | telesync
  | telecine
  | workprint
  | dvd
  | tv
  | webDl
  | webRip
  | bluRay
deriving DecidableEq, Repr

inductive VideoCodec where
  | h264
  | x264
  | x265
  | xviD
  | divX
  | mpeg2
  | mpeg4
deriving DecidableEq, Repr

inductive Video3d where
  | v3d
  | v3dSbs
  | v3dOu
deriving DecidableEq, Repr

inductive VideoModifier where
  | regional
  | screener
  | rawHd
  | brDisk
  | remux
deriving DecidableEq, Repr

/-- What is known of the files of an item. -/
inductive FilesStatus where
  | noInfo
  | single
  | multi
  | overThreshold
deriving DecidableEq, Repr

instance : Labelled ContentType where
  title := "ContentType"
  values := [.movie,.tvShow,.music,.ebook,.comic,.audiobook,.game,.software,.xxx]
  label
    | .movie => "movie"
    | .tvShow => "tv_show"
    | .music => "music"
    | .ebook => "ebook"
    | .comic => "comic"
    | .audiobook => "audiobook"
    | .game => "game"
    | .software => "software"
    | .xxx => "xxx"
  lookup_label a := by cases a <;> decide

instance : Labelled VideoResolution where
  title := "VideoResolution"
  values := [.v360p,.v480p,.v540p,.v576p,.v720p,.v1080p,.v1440p,.v2160p,.v4320p]
  label
    | .v360p => "V360p"
    | .v480p => "V480p"
    | .v540p => "V540p"
    | .v576p => "V576p"
    | .v720p => "V720p"
    | .v1080p => "V1080p"
    | .v1440p => "V1440p"
    | .v2160p => "V2160p"
    | .v4320p => "V4320p"
  lookup_label a := by cases a <;> decide

instance : Labelled VideoSource where
  title := "VideoSource"
  values := [.cam,.telesync,.telecine,.workprint,.dvd,.tv,.webDl,.webRip,.bluRay]
  label
    | .cam => "CAM"
    | .telesync => "TELESYNC"
    | .telecine => "TELECINE"
    | .workprint => "WORKPRINT"
    | .dvd => "DVD"
    | .tv => "TV"
    | .webDl => "WEBDL"
    | .webRip => "WEBRip"
    | .bluRay => "BluRay"
  lookup_label a := by cases a <;> decide

instance : Labelled VideoCodec where
  title := "VideoCodec"
  values := [.h264,.x264,.x265,.xviD,.divX,.mpeg2,.mpeg4]
  label
    | .h264 => "H264"
    | .x264 => "x264"
    | .x265 => "x265"
    | .xviD => "XviD"
    | .divX => "DivX"
    | .mpeg2 => "MPEG2"
    | .mpeg4 => "MPEG4"
  lookup_label a := by cases a <;> decide

instance : Labelled Video3d where
  title := "Video3d"
  values := [.v3d,.v3dSbs,.v3dOu]
  label
    | .v3d => "V3D"
    | .v3dSbs => "V3DSBS"
    | .v3dOu => "V3DOU"
  lookup_label a := by cases a <;> decide

instance : Labelled VideoModifier where
  title := "VideoModifier"
  values := [.regional,.screener,.rawHd,.brDisk,.remux]
  label
    | .regional => "REGIONAL"
    | .screener => "SCREENER"
    | .rawHd => "RAWHD"
    | .brDisk => "BRDISK"
    | .remux => "REMUX"
  lookup_label a := by cases a <;> decide

instance : Labelled FilesStatus where
  title := "FilesStatus"
  values := [.noInfo,.single,.multi,.overThreshold]
  label
    | .noInfo => "no_info"
    | .single => "single"
    | .multi => "multi"
    | .overThreshold => "over_threshold"
  lookup_label a := by cases a <;> decide

end Intake
