import ToaruPanel.Basic
import ToaruPanel.Volume
import ToaruPanel.Runner
import ToaruPanel.Layout
import ToaruPanel.Grid
import ToaruPanel.Focus
import ToaruPanel.Widgets
import ToaruPanel.Panel
import ToaruPanel.Wallpaper
import ToaruPanel.Repaint
import ToaruPanel.Desktop
import ToaruPanel.Session
import ToaruPanel.AltTab
import ToaruPanel.Launch
import ToaruPanel.Prompt
