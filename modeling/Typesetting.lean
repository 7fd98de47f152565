import Typesetting.Lib.WhileLoop
import Typesetting.Lib.Transition
import Typesetting.Lib.FirstOccurrence
import Typesetting.Lib.Segment
import Typesetting.Lib.Stack
import Typesetting.Lib.Spacing
import Typesetting.Lib.Regex
import Typesetting.Lib.Splitter
import Typesetting.Lib.FirstFit
import Typesetting.Lib.LineBuilder
import Typesetting.Lib.Delimiter
import Typesetting.Lib.Memo
import Typesetting.Lib.Justify
import Typesetting.Text.Utf16
import Typesetting.Text.Numerals
import Typesetting.Constants.LayoutConstants
import Typesetting.Models.PageModel
import Typesetting.Core.InteropInterface
import Typesetting.Services.TextHelper
import Typesetting.Services.CleanTextForLayout
import Typesetting.Services.SplitToParagraphs
import Typesetting.Services.Conservation
import Typesetting.Services.WrapText
import Typesetting.Services.TagParity
import Typesetting.Services.Idempotence
import Typesetting.Services.NoteFormat
import Typesetting.Services.PaginationEngine
import Typesetting.Services.PageFilling
import Typesetting.Services.SingleLine
import Typesetting.Services.PageBreaks
import Typesetting.Services.TextParser
import Typesetting.Services.Parse
import Typesetting.Services.ParsedFormat
import Typesetting.Services.FootnoteReferences
import Typesetting.Services.MeasureTextWidth
import Typesetting.Services.LineBreaking
import Typesetting.Services.PointedLines
import Typesetting.Services.LastLineMarker
import Typesetting.Services.FootnotePlacement
import Typesetting.Services.FootnoteSystems
import Typesetting.Services.ColumnLayoutEngine
import Typesetting.Services.HeightCalculator
import Typesetting.Services.GreedyFit
import Typesetting.Rendering.PageRenderer
import Typesetting.Rendering.WordPlacement
import Typesetting.Rendering.DrawnWidth
import Typesetting.Rendering.WrapTextToWidth
import Typesetting.Rendering.LayerStacking
import Typesetting.Rendering.SectionHeights
import Typesetting.Rendering.RunOnHeight
import Typesetting.Rendering.StackedPages
import Typesetting.Rendering.DrawnWords
import Typesetting.ViewModels.EditorViewModel
import Typesetting.ViewModels.GlyphsInStep
import Typesetting.ViewModels.FailedLayout
import Typesetting.Views.GlyphDecoding
import Typesetting.Views.JustifiedLine
import Typesetting.Views.JustifiedNote
import Typesetting.Views.FootnoteMarkers
import Typesetting.Views.DrawGlyphs
import Typesetting.Views.DrawnRows
import Typesetting.Views.CanvasInStep
import Typesetting.Views.PageComboBox
import Typesetting.Views.LaidOutText
import Typesetting.Views.Subscriptions
import Typesetting.Views.AnalysisInStep
import Typesetting.Views.SavedHistory
import Typesetting.Views.SelectionInStep
import Typesetting.Views.LayoutHistory
import Typesetting.Views.TwoColumnPage
import Typesetting.Views.TwoColumnRows
import Typesetting.Services.VerseLocations
import Typesetting.Services.CleanParagraphs
