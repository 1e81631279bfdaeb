import Showcase.Record.Basic
import Showcase.View

namespace Showcase

open Record (Layout)

def SampleEntry.layout : Layout SampleEntry where
  fields := [⟨"id", .id⟩, ⟨"title", .text⟩, ⟨"source_text", .text⟩, ⟨"expected_output", .text⟩]
  ofRow := fun (id, title, sourceText, expectedOutput, ()) => ⟨id, title, sourceText, expectedOutput⟩
  toRow := fun entry => (entry.id, entry.title, entry.sourceText, entry.expectedOutput, ())

def SampleSummary.layout : Layout SampleSummary where
  fields := [⟨"id", .id⟩, ⟨"title", .text⟩]
  ofRow := fun (id, title, ()) => ⟨id, title⟩
  toRow := fun summary => (summary.id, summary.title, ())

def ArtifactRule.layout : Layout ArtifactRule where
  fields := [⟨"directory", .text⟩, ⟨"extension", .text⟩]
  ofRow := fun (directory, extension, ()) => ⟨directory, extension⟩
  toRow := fun rule => (rule.directory, rule.extension, ())
  defaults :=
    let rule : ArtifactRule := {}
    some (rule.directory, rule.extension, ())

def ApiError.layout : Layout ApiError where
  fields := [⟨"code", .code⟩, ⟨"message", .text⟩]
  ofRow := fun (code, message, ()) => ⟨code, message⟩
  toRow := fun error => (error.code, error.message, ())

def View.layout : Layout View where
  fields :=
    [⟨"title", .text⟩, ⟨"source_text", .text⟩, ⟨"expected_output", .text⟩, ⟨"download_href", .text⟩,
     ⟨"download_label", .text⟩]
  ofRow := fun (title, sourceText, expectedOutput, downloadHref, downloadLabel, ()) =>
    ⟨title, sourceText, expectedOutput, downloadHref, downloadLabel⟩
  toRow := fun view =>
    (view.title, view.sourceText, view.expectedOutput, view.downloadHref, view.downloadLabel, ())

def NavItem.layout : Layout NavItem where
  fields := [⟨"id", .id⟩, ⟨"title", .text⟩, ⟨"href", .text⟩, ⟨"active", .flag⟩]
  ofRow := fun (id, title, href, active, ()) => ⟨id, title, href, active⟩
  toRow := fun item => (item.id, item.title, item.href, item.active, ())

end Showcase
